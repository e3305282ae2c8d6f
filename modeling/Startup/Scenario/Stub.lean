import Startup.Scenario.Script

/-!
# Stub contexts

A stub notes the kind of everything that is published through it and delivers it to the listeners
that it was given, active or not. It tells its listeners only if it is enumerable.
-/

namespace Startup.Scenario

namespace Stub

def create (name : String) (isActive isEnumerable : Bool) : Stub :=
  ⟨name, isActive, isEnumerable, .empty, []⟩

def note (stub : Stub) (kind : EventKind) : Stub :=
  { stub with published := stub.published ++ [kind] }

def register (stub : Stub) (registration : Registration) : Stub :=
  { stub with multicaster := stub.multicaster.register registration }

end Stub

namespace Memory

def stub? (memory : Memory) (id : ForeignId) : Option Stub :=
  memory.stubs[id.index]?

def modifyStub (memory : Memory) (id : ForeignId) (f : Stub → Stub) : Memory :=
  { memory with stubs := memory.stubs.modify id.index f }

def addStub (memory : Memory) (stub : Stub) : ForeignId × Memory :=
  (⟨memory.stubs.length⟩, { memory with stubs := memory.stubs ++ [stub] })

end Memory

def stubContext (id : ForeignId) : ForeignContext Memory where
  identity memory := ((memory.stub? id).map Stub.name).getD ""
  isActive memory := ((memory.stub? id).map Stub.isActive).getD false
  listeners memory := do
    let stub ← memory.stub? id
    if stub.isEnumerable then some stub.multicaster.listeners else none
  publish event := do
    Program.modifyMemory fun memory => memory.modifyStub id fun stub => stub.note event.kind
    let memory : Memory ← Program.request .memory
    let multicaster := ((memory.stub? id).map Stub.multicaster).getD .empty
    let outcome : Except DeliveryError Nat ← Program.request (.broadcast multicaster event)
    return outcome.map fun _ => ()
  subscribe listener := do
    let registration : Registration ← Program.request (.enlist listener)
    Program.modifyMemory fun memory =>
      memory.modifyStub id fun stub => stub.register registration

end Startup.Scenario
