import Federation.Processor.Dialback
import Federation.Processor.StreamError

/-!
The usual processors of a node.
-/

namespace Federation

def Chain.standard {τ : Type} [Transport τ] (settings : Settings) : Chain τ :=
  .ofProcessors [.dialback settings.authTimeout settings.workaround, .streamError]

end Federation
