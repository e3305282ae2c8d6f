/-!
# Kinds of applications

Each kind is written by its name in lower case, and only that spelling is read.
-/

namespace Startup

inductive ApplicationKind where
  | standalone
  | servlet
  | reactive
  deriving DecidableEq, Repr

namespace ApplicationKind

instance : Inhabited ApplicationKind := ⟨standalone⟩

def all : List ApplicationKind :=
  [standalone, servlet, reactive]

def name : ApplicationKind → String
  | standalone => "standalone"
  | servlet => "servlet"
  | reactive => "reactive"

def ofName? (text : String) : Option ApplicationKind :=
  all.find? fun kind => kind.name == text

theorem ofName?_name (kind : ApplicationKind) : ofName? kind.name = some kind := by
  cases kind <;> decide +kernel

def unreadable : String :=
  "Matching variant not found"

def inspect : ApplicationKind → String
  | standalone => "Standalone"
  | servlet => "Servlet"
  | reactive => "Reactive"

end ApplicationKind

end Startup
