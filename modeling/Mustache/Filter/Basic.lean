import Mustache.Json.Basic
import Mustache.Keyed
import Mustache.Text.Quoted

namespace Mustache

/-- A filter takes a value and arguments and gives a value, or the message of its
failure. -/
abbrev Filter : Type := Json → List Json → Except String Json

/-- Filters by name. -/
structure FilterRegistry where
  filters : List (String × Filter) := []

namespace FilterRegistry

def get? (registry : FilterRegistry) (name : String) : Option Filter :=
  registry.filters.lookup name

/-- Registers a filter, in place of an older one of the same name. -/
def add (registry : FilterRegistry) (name : String) (filter : Filter) : FilterRegistry :=
  ⟨Keyed.insert name filter registry.filters⟩

def names (registry : FilterRegistry) : List String :=
  registry.filters.map Prod.fst

def summary (registry : FilterRegistry) : String :=
  "FilterRegistry \x7b filters: [" ++ ", ".intercalate (registry.names.map Text.showQuoted) ++
    "] \x7d"

theorem get?_add_self (registry : FilterRegistry) (name : String) (filter : Filter) :
    (registry.add name filter).get? name = some filter :=
  Keyed.lookup_insert_self name filter registry.filters

theorem get?_add_of_ne (registry : FilterRegistry) {name other : String} (different : other ≠ name)
    (filter : Filter) : (registry.add name filter).get? other = registry.get? other :=
  Keyed.lookup_insert_of_ne different filter registry.filters

end FilterRegistry

end Mustache
