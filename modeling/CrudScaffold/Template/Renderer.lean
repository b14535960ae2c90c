import CrudScaffold.Journal
import CrudScaffold.Template.Marker
import CrudScaffold.Template.Store

/-!
# CrudScaffold.Template.Renderer — filling templates

Filling is a single pass: every marker whose name has a value is replaced by the value, and the value is not looked
at again.  Markers without a value are kept as they are, with one warning, or are a failure when filling is strict.
-/

namespace CrudScaffold.Template

/-- The values of placeholders. -/
abbrev Context := List (String × String)

/-- A piece with its value in place of a marker, if it has one. -/
def Segment.fill (context : Context) : Segment → List Char
  | .literal c => [c]
  | .marker m => match context.lookup (String.ofList m.name) with
    | some value => value.toList
    | none => m.written

/-- The names of the placeholders without a value, each once. -/
def uncovered (context : Context) (text : String) : List String :=
  (placeholdersOf text).filter fun name => (context.lookup name).isNone

/-- The text with the values in place. -/
def fill (context : Context) (text : String) : String :=
  String.ofList ((segments text.toList).flatMap (Segment.fill context))

/-- Fills a text; `template` is its name in messages. -/
def substitute (strict : Bool) (template : String) (context : Context) (text : String) : Logged Failure String := do
  let open_ := uncovered context text
  if open_.isEmpty then return fill context text
  else if strict then throw (.noValue template open_)
  else do
    let names := ", ".intercalate (sortTexts open_)
    note .warning .templates s!"Template '{template}' left {open_.length} placeholder(s) unfilled: {names}"
    return fill context text

/-- Fills the templates of a store. -/
structure Renderer where
  store : Store
  strict : Bool
  required : List (String × List String)

/-- The placeholders that a template needs, in ascending order. -/
def Renderer.requiredFor (r : Renderer) (template : String) : List String :=
  sortTexts (distinct ((r.required.lookup template).getD []))

/-- Fills a template of the store.  A value must be given for every placeholder that the template needs. -/
def Renderer.render (r : Renderer) (v : View) (template : String) (context : Context) : Logged Fault String := do
  let text ← (r.store.get v template : Except Fault String)
  let missing := (r.requiredFor template).filter fun name => (context.lookup name).isNone
  if missing.isEmpty then ExceptT.adapt Fault.failure (substitute r.strict template context text)
  else throw (.failure (.noValue template missing))

end CrudScaffold.Template
