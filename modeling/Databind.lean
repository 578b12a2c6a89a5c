import Databind.Session.Transcript
import Databind.Proofs.Channel
import Databind.Proofs.Accounting
import Databind.Proofs.Failure
import Databind.Proofs.Notification
import Databind.Proofs.Rendering
import Databind.Proofs.Rerender
import Databind.Proofs.Grammar
import Databind.Proofs.Parsing
import Databind.Proofs.Triggers
import Databind.Proofs.Numeral
import Databind.Proofs.Spelling
import Databind.Proofs.Printing
import Databind.Proofs.Ledger
import Databind.Proofs.FreeList
import Databind.Proofs.Holding
import Databind.Proofs.Emission
import Databind.Proofs.Attaching
import Databind.Proofs.Ownership
import Databind.Proofs.Agreement
import Databind.Proofs.Narrowing
import Databind.Proofs.Removal
import Databind.Proofs.GrownTrees
import Databind.Proofs.Linking
import Databind.Proofs.Placement
import Databind.Proofs.Matching
import Databind.Proofs.Dispatch
import Databind.Proofs.Wording
import Databind.Proofs.Listing
import Databind.Proofs.Layout
import Databind.Proofs.Rewording
import Databind.Proofs.Roundtrip
import Databind.Proofs.Sweep
import Databind.Proofs.Announcement
import Databind.Proofs.Dropping
import Databind.Proofs.Independence.BinderComparison
import Databind.Proofs.Independence.RosterComparison
import Databind.Proofs.Independence.StoreComparison
import Databind.Proofs.Independence.BasicChanges
import Databind.Proofs.Independence.OwnOperations
import Databind.Proofs.Independence.OtherOperations
import Databind.Proofs.Independence.SharedOperations
import Databind.Proofs.Independence.SharedDeeds
import Databind.Proofs.Independence.WorkspaceComparison
import Databind.Proofs.Independence.Commands
import Databind.Proofs.Query
import Databind.Proofs.Attribution
import Databind.Proofs.Independence.Runs
import Databind.Proofs.Independence
import Databind.Proofs.Expansion
import Databind.Proofs.Reading
import Databind.Proofs.Unedited
import Databind.Proofs.Refusal
import Databind.Proofs.Membership
import Databind.Proofs.Braces
import Databind.Proofs.Batch
import Databind.Proofs.Qualifying
import Databind.Proofs.Grafting
import Databind.Proofs.Prose
import Databind.Proofs.Prefix
import Databind.Proofs.Comparison
import Databind.Proofs.Target
import Databind.Proofs.Decoding
import Databind.Proofs.Handover
import Databind.Proofs.Mounting
import Databind.Proofs.Wrapping
import Databind.Proofs.Escaping
import Databind.Proofs.Indexing
import Databind.Proofs.Munching
import Databind.Proofs.Siblings
import Databind.Proofs.Recovery
