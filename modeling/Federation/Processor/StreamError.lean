import Federation.Processor.Basic

/-!
The processor that ends a connection on which the peer reports an error of the stream.
-/

namespace Federation

def Processor.streamError {τ : Type} [Transport τ] : Processor τ where
  name := "stream-error"
  order := .streamError
  process n k e := if Stanza.isStreamError e then (true, n.stop k false) else (false, n)

end Federation
