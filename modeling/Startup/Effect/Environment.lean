import Startup.Effect.Program
import Startup.Property.Document

/-!
# Documents loaded into an environment

A document is read as a whole before anything is stored, so one that is refused leaves the store of
the environment as it was.
-/

namespace Startup

variable {σ : Type}

def Environment.load (environment : Environment) (source text : String) :
    Program σ (Except SetupError Unit) :=
  match Properties.assignments source text with
  | .error error => return .error error
  | .ok pairs => do
    let _ : Unit ← Program.request (.assign environment.store pairs)
    return .ok ()

end Startup
