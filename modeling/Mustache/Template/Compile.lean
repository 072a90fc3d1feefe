import Mustache.Template.Builder
import Mustache.Token.Scan

/-!
Compiling a source. A fault of the builder comes before one of the scan, because the
scan's fault is the last thing in it. The events of a compilation are those of the
tokens that were taken.
-/

namespace Mustache

namespace Template

def ofScan (contentType : ContentType) (scan : Scan) : Except SyntaxError Template :=
  match (Builder.start contentType).addTokens scan.tokens with
  | .error e => .error e
  | .ok b =>
    match scan.error with
    | some e => .error e
    | none => b.finish

def compile (config : Configuration) (source : String) : Except SyntaxError Template :=
  ofScan config.contentType (Scan.ofSource config.delimiters source)

end Template

def Token.events : Token → List Event
  | .text _ => []
  | .tag t =>
    match t.kind with
    | .delimiters next => [.delimitersChanged next]
    | .pragma => (Pragma.read t.content).events t.content
    | _ => []

/-- The events of the tokens up to the first one that a builder refuses. -/
def Builder.events (b : Builder) : List Token → List Event
  | [] => []
  | t :: rest =>
    t.events ++
      match b.addToken t with
      | .error _ => []
      | .ok b => b.events rest

namespace Template

def compileEvents (config : Configuration) (source : String) : List Event :=
  let scan := Scan.ofSource config.delimiters source
  (Builder.start config.contentType).events scan.tokens ++
    match ofScan config.contentType scan with
    | .error _ => []
    | .ok t => [.compiled t.contentType t.nodes.length]

end Template

end Mustache
