import DocPath.Main
import DocPath.Registry.Standard
import DocPath.Path.Text
import DocPath.Proofs.Model.Events
import DocPath.Proofs.Binary64.Rounding
import DocPath.Proofs.Syntax.Viability
import DocPath.Proofs.Syntax.Spelling
import DocPath.Proofs.Syntax.Writing
import DocPath.Proofs.Path.Shape
import DocPath.Proofs.Path.Printing
import DocPath.Proofs.Path.Faithful
import DocPath.Proofs.Path.Indirection
import DocPath.Proofs.Value.Json
import DocPath.Proofs.CommandLine.Mutate
import DocPath.Proofs.Cache
import DocPath.Proofs.Edit.Extension
import DocPath.Proofs.Edit.Removal
import DocPath.Proofs.Edit.Growth
import DocPath.Proofs.Edit.Variables
import DocPath.Proofs.Edit.Repetition
import DocPath.Proofs.Edit.Independence
import DocPath.Proofs.Model.Undoing
import DocPath.Proofs.Binary64.Whole
import DocPath.Proofs.Model.Methods
import DocPath.Proofs.Scope
import DocPath.Proofs.Syntax.Places
import DocPath.Proofs.Value.Names
import DocPath.Proofs.Value.Finite
import DocPath.Proofs.Path.Tagged
import DocPath.Proofs.Syntax.Resuming
import DocPath.Proofs.Syntax.Progress
import DocPath.Proofs.Value.Positions
import DocPath.Proofs.Value.Order
import DocPath.Proofs.Model.Order
import DocPath.Proofs.CommandLine.Run
