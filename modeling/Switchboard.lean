import Switchboard.Config
import Switchboard.Data.Printing
import Switchboard.Data.Reading
import Switchboard.Grammar.Builder
import Switchboard.Grammar.Form
import Switchboard.Grammar.Outline
import Switchboard.Machine.Form
import Switchboard.Matching.Assertion
import Switchboard.Session
import Switchboard.Proofs.Data.Channels
import Switchboard.Proofs.Grammar.Bodies
import Switchboard.Proofs.Grammar.Building
import Switchboard.Proofs.Grammar.Forms
import Switchboard.Proofs.Grammar.Outlines
import Switchboard.Proofs.Iteration
import Switchboard.Proofs.Machine.Association
import Switchboard.Proofs.Machine.Borrowing
import Switchboard.Proofs.Machine.Bounces
import Switchboard.Proofs.Machine.Composition
import Switchboard.Proofs.Machine.Exchanges
import Switchboard.Proofs.Machine.Faceted
import Switchboard.Proofs.Machine.Finality
import Switchboard.Proofs.Machine.Halves
import Switchboard.Proofs.Machine.Paths
import Switchboard.Proofs.Machine.Pipelines
import Switchboard.Proofs.Machine.Renaming
import Switchboard.Proofs.Machine.Restoring
import Switchboard.Proofs.Machine.Seeding
import Switchboard.Proofs.Machine.Separation
import Switchboard.Proofs.Machine.Stashing
import Switchboard.Proofs.Matching.Enclosing
import Switchboard.Proofs.Matching.Framing
import Switchboard.Proofs.Matching.Guard
import Switchboard.Proofs.Matching.Interleaving
import Switchboard.Proofs.Matching.Lasting
import Switchboard.Proofs.Matching.Prefixes
import Switchboard.Proofs.Matching.Progress
import Switchboard.Proofs.Matching.Range
import Switchboard.Proofs.Matching.Stalling
import Switchboard.Proofs.Session.Accounts
import Switchboard.Proofs.Session.Driving
import Switchboard.Proofs.Session.Replay
import Switchboard.Proofs.Session.Trampolines
import Switchboard.Proofs.Session.Transcripts
