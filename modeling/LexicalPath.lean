import LexicalPath.BoundPath
import LexicalPath.Dialect.Declared
import LexicalPath.Main
import LexicalPath.Proofs.Collapse.Appended
import LexicalPath.Proofs.Collapse.ClosedForm
import LexicalPath.Proofs.Collapse.Dotted
import LexicalPath.Proofs.Collapse.NormalForm
import LexicalPath.Proofs.Collapse.Resumed
import LexicalPath.Proofs.Hop
import LexicalPath.Proofs.Hop.Distance
import LexicalPath.Proofs.Hop.Journey
import LexicalPath.Proofs.Resolve.Association
import LexicalPath.Proofs.Resolve.Parts
import LexicalPath.Proofs.Text.Parted
import LexicalPath.Proofs.Text.Squeezed
import LexicalPath.Proofs.Dialect.Reading
import LexicalPath.Proofs.Dialect.Unix
import LexicalPath.Proofs.Dialect.WellFormed
import LexicalPath.Proofs.Registry.EntryPoints
import LexicalPath.Proofs.Registry.Standard
import LexicalPath.Proofs.Registry.Tenure
import LexicalPath.Proofs.Document.Json
import LexicalPath.Proofs.Document.Yaml
import LexicalPath.Proofs.Script
import LexicalPath.Proofs.Command.Delivered
import LexicalPath.Proofs.Command.Exit
import LexicalPath.Proofs.Command.EntryPoints
import LexicalPath.Proofs.Dialect.Windows.Rooted
import LexicalPath.Proofs.Resolve.Joined
import LexicalPath.Proofs.Command.Table
import LexicalPath.Proofs.Registry.Refusals
import LexicalPath.Proofs.Path.Order
import LexicalPath.Proofs.Resolve.Cuts
