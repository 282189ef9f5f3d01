import LexicalPath.Proofs.Command.Call
import LexicalPath.Proofs.Command.Forms

namespace LexicalPath.Command

variable {host : Host} {o : Operation} {words : List String} {g : Given} {f : Format}

end LexicalPath.Command
