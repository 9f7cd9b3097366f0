import Federation.Processor.Basic

/-!
A processor that records what it is offered. It consumes elements by name and adds a fixed text and
a fixed feature, so it shows how a chain treats its processors.
-/

namespace Federation

structure Probe where
  name : String
  order : ProcessorOrder
  consumes : List String
  text : Option String
  feature : Option String

def Processor.probe {τ : Type} (p : Probe) : Processor τ where
  name := p.name
  order := p.order
  process n _ e := (p.consumes.contains e.name, n.record (.offered p.name e.name))
  streamOpened n _ _ := (p.text, n)
  features _ _ := (p.feature.map fun name => (⟨name, [], none, []⟩ : Element)).toList
  serviceStarted n k := n.record (.serviced p.name (n.session k).conn)

end Federation
