import Stencil.Main
import Stencil.Variables.Inspect
import Stencil.Proofs.Window
import Stencil.Proofs.Scan
import Stencil.Proofs.Frame
import Stencil.Proofs.Passage
import Stencil.Proofs.Replay
import Stencil.Proofs.Utf8
import Stencil.Proofs.Sight
import Stencil.Proofs.Delivery
import Stencil.Proofs.Blocks
import Stencil.Proofs.Meaning
import Stencil.Proofs.Telling
import Stencil.Proofs.Tokens
import Stencil.Proofs.Refinement
import Stencil.Proofs.Suppression
import Stencil.Proofs.Nesting
import Stencil.Proofs.Withheld
import Stencil.Proofs.Agreement
import Stencil.Proofs.Decoding
import Stencil.Proofs.Printing
import Stencil.Proofs.Halting
import Stencil.Proofs.Callbacks
import Stencil.Proofs.Accounting
import Stencil.Proofs.Sharing
import Stencil.Proofs.Retention
import Stencil.Proofs.Resident
import Stencil.Proofs.Composition
import Stencil.Proofs.Seam
import Stencil.Proofs.Caching
import Stencil.Proofs.Pairs
import Stencil.Proofs.Definitions
import Stencil.Proofs.Cuts
import Stencil.Proofs.Refusals
import Stencil.Proofs.Snapshots
import Stencil.Proofs.Literals
import Stencil.Proofs.Escaping
import Stencil.Proofs.Fragments
import Stencil.Proofs.Cycles
import Stencil.Proofs.Renaming
import Stencil.Proofs.Lookup
import Stencil.Proofs.Released
import Stencil.Proofs.Unclosed
import Stencil.Proofs.Exactness
import Stencil.Proofs.Equality
import Stencil.Proofs.Splitting
import Stencil.Proofs.Spans
import Stencil.Proofs.Positions
import Stencil.Proofs.Occurrences
