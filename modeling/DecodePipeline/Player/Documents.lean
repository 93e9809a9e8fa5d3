import DecodePipeline.Options.Json
import DecodePipeline.Player.Files
import DecodePipeline.Script.Json

/-!
This module contains the loading of options and scripts from files.
-/

namespace DecodePipeline

inductive DocumentKind where
  | options
  | script
  deriving DecidableEq

inductive LoadError where
  | unreadable (kind : DocumentKind) (path : String) (fault : FileFault)
  | unparsable (path : String) (fault : Json.Fault)
  deriving DecidableEq

def Json.Fault.message : Json.Fault → String
  | malformed => "not JSON"
  | mistyped => "a value of the wrong type"
  | unfinished => "unexpected end of text"

def LoadError.message : LoadError → String
  | unreadable .options path fault => s!"reading decoder options from {path}: {fault.message}"
  | unreadable .script path fault => s!"reading stream script {path}: {fault.message}"
  | unparsable path fault => s!"parsing {path}: {fault.message}"

def LoadError.check {α : Type} (kind : DocumentKind) (path : String)
    (parse : String → Except Json.Fault α) : Except FileFault String → Except LoadError α
  | .error fault => .error (.unreadable kind path fault)
  | .ok text => (parse text).mapError (.unparsable path)

variable {m : Type → Type} [Monad m] {σ : Type}

def DecoderOptions.load (files : FileAccess m σ) (path : String) :
    m (Except LoadError DecoderOptions) :=
  return LoadError.check .options path DecoderOptions.ofJson? (← files.read path)

def StreamScript.load (files : FileAccess m σ) (path : String) :
    m (Except LoadError StreamScript) :=
  return LoadError.check .script path StreamScript.ofJson? (← files.read path)

end DecodePipeline
