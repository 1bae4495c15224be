import Fragments.Settings

namespace Fragments

def Group.ofSetting? (name : String) : Option Group :=
  Group.all.find? fun group => group.setting == name

namespace Versioning

def fieldNames : List String := Group.all.map Group.setting ++ ["overrides"]

def fieldOfSetting (settings : Settings) (name : String) :
    Except Problem (Scalar × Value) :=
  match Group.ofSetting? name with
  | some group => .ok (.text name, .text (settings.version group))
  | none => .error (.fault .unknownWord)

/-- The versioning that settings describe: each field whose name is that of a
version is copied. -/
def ofSettings (settings : Settings) : Except Problem Versioning := do
  let names := fieldNames.filter fun name => name.endsWith "_version"
  ofFields (← names.mapM (fieldOfSetting settings))

def forKind? (versioning : Versioning) : Option String → Value
  | some kind => versioning.forKind kind
  | none => .null

end Versioning

structure Resolver where
  version : Group → String
  overrides : Nat

structure Memory where
  dictionaries : List (List (Scalar × Value))
  resolvers : List Resolver
  own : List Nat

namespace Memory

def start : Memory := ⟨[], [], []⟩

/-- What the resolver at a place answers by. -/
def versioning? (memory : Memory) (place : Nat) : Option Versioning := do
  let resolver ← memory.resolvers[place]?
  let overrides ← memory.dictionaries[resolver.overrides]?
  some ⟨resolver.version, overrides⟩

def note (entries : List (Scalar × Value)) (memory : Memory) : Nat × Memory :=
  (memory.dictionaries.length,
    { memory with
      dictionaries := memory.dictionaries ++ [entries]
      own := memory.own ++ [memory.dictionaries.length] })

def change (place : Nat) (entries : List (Scalar × Value))
    (memory : Memory) : Memory :=
  if place ∈ memory.own then
    { memory with dictionaries := memory.dictionaries.set place entries }
  else memory

def make (versioning : Versioning) (memory : Memory) : Nat × Memory :=
  (memory.resolvers.length,
    { memory with
      dictionaries := memory.dictionaries ++ [versioning.overrides]
      resolvers := memory.resolvers ++
        [⟨versioning.version, memory.dictionaries.length⟩] })

/-- A resolver with the versions of another, whose dictionary is made of the
other's and a given one. -/
def derive (place given : Nat) (memory : Memory) : Option (Nat × Memory) := do
  let resolver ← memory.resolvers[place]?
  let overrides ← memory.dictionaries[resolver.overrides]?
  let further ← memory.dictionaries[given]?
  some (memory.make ⟨resolver.version, Value.update overrides further⟩)

inductive Step
  | note (entries : List (Scalar × Value))
  | change (place : Nat) (entries : List (Scalar × Value))
  | make (versioning : Versioning)
  | derive (place given : Nat)

/-- The memory after a step. From a place where nothing stands no resolver is
derived. -/
def step (memory : Memory) : Step → Memory
  | .note entries => (memory.note entries).2
  | .change place entries => memory.change place entries
  | .make versioning => (memory.make versioning).2
  | .derive place given =>
      match memory.derive place given with
      | some (_, after) => after
      | none => memory

def run (memory : Memory) (steps : List Step) : Memory :=
  steps.foldl step memory

end Memory

end Fragments
