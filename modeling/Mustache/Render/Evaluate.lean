import Mustache.Data.Conversion
import Mustache.Escape
import Mustache.Filter.Basic
import Mustache.Render.Error
import Mustache.Scopes
import Mustache.Template.Basic

namespace Mustache

/-- What a template calls for while it is rendered. -/
structure Collaborators where
  /-- Templates by name, for partials and parents. -/
  templates : String → Option Template := fun _ => none
  /-- Filters by name. -/
  filters : String → Option Filter := fun _ => none
  escaper : Escaper := Escape.standard

namespace Collaborators

/-- What a filter is given for a value; a value that is not defined counts as null. -/
def filterInput : Option Data → Except NoCounterpart Json
  | none => .ok .null
  | some v => v.toJson

/-- What a filter is given for an argument. -/
def argumentInput (scopes : Scopes) : Argument → Except NoCounterpart Json
  | .literal v => .ok v
  | .path path => filterInput (scopes.resolve path)

/-- The arguments of a call, up to the first that has no counterpart. -/
def argumentInputs (scopes : Scopes) : List Argument → Except NoCounterpart (List Json)
  | [] => .ok []
  | argument :: rest => do
    let first ← argumentInput scopes argument
    let others ← argumentInputs scopes rest
    return first :: others

/-- Calls a filter. The arguments are converted before the value. -/
def call (c : Collaborators) (scopes : Scopes) (position : Position) (value : Option Data)
    (call : FilterCall) : Except RenderError Data :=
  match c.filters call.name with
  | none => .error (.unknownFilter call.name position)
  | some filter =>
    match argumentInputs scopes call.args with
    | .error reason => .error (.filterFailed call.name reason.message position)
    | .ok args =>
      match filterInput value with
      | .error reason => .error (.filterFailed call.name reason.message position)
      | .ok input =>
        match filter input args with
        | .error message => .error (.filterFailed call.name message position)
        | .ok result => .ok (.produced result)

def pipe (c : Collaborators) (scopes : Scopes) (position : Position) (value : Option Data) :
    List FilterCall → Except RenderError (Option Data)
  | [] => .ok value
  | first :: rest =>
    match c.call scopes position value first with
    | .error e => .error e
    | .ok result => c.pipe scopes position (some result) rest

/-- The value of an expression, if it has one. -/
def evaluate (c : Collaborators) (scopes : Scopes) (position : Position) (e : Expression) :
    Except RenderError (Option Data) :=
  c.pipe scopes position (scopes.resolve e.path) e.filters

end Collaborators

end Mustache
