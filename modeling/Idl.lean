import Idl.Command
import Idl.Main
import Idl.Proofs.Command.Agreement
import Idl.Proofs.Command.Messages
import Idl.Proofs.Command.Preservation
import Idl.Proofs.Command.Recheck
import Idl.Proofs.Descent.Progress
import Idl.Proofs.Draft.Frame
import Idl.Proofs.Draft.Origins
import Idl.Proofs.Draft.Repeats
import Idl.Proofs.Layout.Law
import Idl.Proofs.Layout.Literal
import Idl.Proofs.Layout.Outline
import Idl.Proofs.Layout.Patch
import Idl.Proofs.Lexeme.Spacing
import Idl.Proofs.Lexeme.Stuck
import Idl.Proofs.Model.Lookup
import Idl.Proofs.Model.Replay
