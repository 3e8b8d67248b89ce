import TreeWatch.Main
import TreeWatch.Channel.Transcript
import TreeWatch.FileSystem.Scripted
import TreeWatch.Watcher.Transcript
import TreeWatch.Proofs.Channel.Receipts
import TreeWatch.Proofs.Pattern.Compilation
import TreeWatch.Proofs.Pattern.Covering
import TreeWatch.Proofs.Pattern.Segments
import TreeWatch.Proofs.Pattern.Listing
import TreeWatch.Proofs.Watcher.Mirror
import TreeWatch.Proofs.Watcher.Course
import TreeWatch.Proofs.Channel.Wakening
import TreeWatch.Proofs.Watcher.Conduct
import TreeWatch.Proofs.Watcher.Publication
import TreeWatch.Proofs.Watcher.Exclusion
import TreeWatch.Proofs.Watcher.Life
import TreeWatch.Proofs.Watcher.Tick
import TreeWatch.Proofs.Restriction
import TreeWatch.Proofs.Watcher.Filtering
import TreeWatch.Proofs.Repetition
import TreeWatch.Proofs.Pattern.Step
import TreeWatch.Proofs.Pattern.Faults
import TreeWatch.Proofs.Pattern.Extension
import TreeWatch.Proofs.Watcher.Idle
import TreeWatch.Proofs.Watcher.Isolation
import TreeWatch.Proofs.Pattern.Insertion
import TreeWatch.Proofs.Pattern.Exploration
import TreeWatch.Proofs.Tree.Listing
import TreeWatch.Proofs.Tree.Walk
import TreeWatch.Proofs.Tree.Location
import TreeWatch.Proofs.Sign
import TreeWatch.Proofs.Channel.Turns
import TreeWatch.Proofs.Validation
import TreeWatch.Proofs.Watcher.Punctual
import TreeWatch.Proofs.Pattern.Positions
import TreeWatch.Proofs.Loading
import TreeWatch.Proofs.Signed
import TreeWatch.Proofs.Intervals
