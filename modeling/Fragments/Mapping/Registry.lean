import Fragments.Mapping.Entry

namespace Fragments

inductive EntryInput
  | ready (entry : MappingEntry)
  | loose (value : Value)
  deriving Inhabited

/-- A batch of entries: none given, a sequence, or a value that is no
sequence. -/
inductive Batch
  | absent
  | entries (items : List EntryInput)
  | notSequence
  deriving Inhabited

/-- The kind of every token in lower case, the last token of the latest entry of
every kind, and all tokens of that entry. -/
structure Registry where
  kindOfToken : List (String × String)
  tokenOfKind : List (String × String)
  tokensOfKind : List (String × List String)
  deriving DecidableEq, Inhabited

namespace Registry

def empty : Registry := ⟨[], [], []⟩

def fallbackToken : String := "cr"

def malformed (value : Value) : Except Problem MappingEntry := do
  let shown ← orFault value.display
  .error (.failure (.mapping (.malformedEntry shown)))

def readEntry : EntryInput → Except Problem MappingEntry
  | .ready entry => .ok entry
  | .loose value =>
      let attempt : Except (List Complaint) MappingEntry :=
        match value with
        | .mapping _ entries => MappingEntry.ofFields entries
        | .list _ [kind, tokens] => MappingEntry.ofParts kind tokens
        | .pair kind tokens => MappingEntry.ofParts kind tokens
        | .set _ [kind, tokens] =>
            MappingEntry.ofParts (.scalar kind) (.scalar tokens)
        | _ => .error []
      match attempt with
      | .ok entry => .ok entry
      | .error _ => malformed value

def checkEntries (entries : List MappingEntry) : Except Problem Unit :=
  match entries.find? fun entry => !entry.isValid with
  | some entry =>
      .error (.failure (.mapping (.blankEntry entry.kind entry.tokens)))
  | none => .ok ()

def add (registry : Registry) (entry : MappingEntry) : Registry where
  kindOfToken := entry.tokens.foldl
    (fun index token =>
      Entries.assign (· == ·) (Text.lower token) entry.kind index)
    registry.kindOfToken
  tokenOfKind :=
    Entries.assign (· == ·) entry.kind (entry.tokens.getLast?.getD "")
      registry.tokenOfKind
  tokensOfKind :=
    Entries.assign (· == ·) entry.kind entry.tokens registry.tokensOfKind

def addAll (registry : Registry) (entries : List MappingEntry) : Registry :=
  entries.foldl add registry

/-- Adds a whole batch, or nothing of it. Every entry is read before the first
is checked. -/
def upsert (registry : Registry) : Batch → Except Problem Registry
  | .absent => .ok registry
  | .notSequence => .error (.fault .wrongType)
  | .entries items => do
      let entries ← items.mapM readEntry
      checkEntries entries
      .ok (registry.addAll entries)

def kindOf? (registry : Registry) (token : String) : Option String :=
  Entries.get? registry.kindOfToken (Text.lower token)

def tokenOf? (registry : Registry) (kind : String) : Option String :=
  Entries.get? registry.tokenOfKind kind

def suffixed (registry : Registry) (name : String)
    (kind : Option String) : String :=
  name ++ "-" ++ ((kind.bind registry.tokenOf?).getD fallbackToken)

def sortTexts (texts : List String) : List String :=
  texts.mergeSort fun a b => !decide (b < a)

def knownTokens (registry : Registry) : List String :=
  sortTexts (registry.kindOfToken.map Prod.fst)

def size (registry : Registry) : Nat := registry.kindOfToken.length

def holds (registry : Registry) (token : String) : Bool :=
  (registry.kindOf? token).isSome

/-- The tokens that still denote a kind. -/
def liveTokens (registry : Registry) (kind : String) (tokens : List String) :
    List String :=
  tokens.filter fun token => registry.kindOf? token == some kind

/-- Kinds in ascending order with the tokens of their latest entry that still
denote them; kinds without any are left out. -/
def mappings (registry : Registry) : List (String × List String) :=
  let sorted := registry.tokensOfKind.mergeSort fun a b => !decide (b.1 < a.1)
  (sorted.map fun (kind, tokens) =>
    (kind, registry.liveTokens kind tokens)).filter
    fun (_, tokens) => !tokens.isEmpty

end Registry

end Fragments
