import Mustache.Keyed
import Mustache.Template.Compile

namespace Mustache

structure TemplateStore where
  config : Configuration := {}
  templates : List (String × Template) := []
deriving Repr, Inhabited

namespace TemplateStore

def get? (store : TemplateStore) (name : String) : Option Template :=
  store.templates.lookup name

/-- Stores a template, in place of an older one of the same name. -/
def insert (store : TemplateStore) (name : String) (template : Template) : TemplateStore :=
  { store with templates := Keyed.insert name template store.templates }

def load (store : TemplateStore) (name source : String) : Except SyntaxError TemplateStore := do
  return store.insert name (← Template.compile store.config source)

theorem get?_insert_self (store : TemplateStore) (name : String) (template : Template) :
    (store.insert name template).get? name = some template :=
  Keyed.lookup_insert_self name template store.templates

theorem get?_insert_of_ne (store : TemplateStore) {name other : String} (different : other ≠ name)
    (template : Template) : (store.insert name template).get? other = store.get? other :=
  Keyed.lookup_insert_of_ne different template store.templates

end TemplateStore

end Mustache
