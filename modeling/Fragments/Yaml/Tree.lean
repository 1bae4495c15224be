import Fragments.Yaml.Lexeme
import Fragments.Yaml.Tag

namespace Fragments.Yaml

inductive Tree
  | alias (name : String)
  | scalar (anchor : Option String) (tag : Tag) (text : String)
  | sequence (anchor : Option String) (tag : Tag) (items : List Tree)
  | mapping (anchor : Option String) (tag : Tag) (entries : List (Tree × Tree))
  deriving Inhabited

namespace Tree

def nothing : Tree := scalar none .null ""

abbrev Handles := List (String × String)

def standardHandles : Handles := [("!", "!"), ("!!", Tag.standardPrefix)]

structure Properties where
  anchor : Option String
  tag : Option String
  deriving Inhabited

def tagText (handles : Handles) (handle : Option String) (suffix : String) :
    Except Trouble String :=
  match handle with
  | none => .ok suffix
  | some handle =>
      match handles.lookup handle with
      | some meaning => .ok (meaning ++ suffix)
      | none => .error .malformed

/-- The kind of a scalar. A lone exclamation mark asks for the shape of the text
to decide. -/
def scalarTag (tag : Option String) (text : String) (plain : Bool) : Tag :=
  match tag with
  | some written =>
      if written == "!" then Tag.ofPlain text else Tag.ofText written
  | none => if plain then Tag.ofPlain text else .str

def containerTag (standard : Tag) (tag : Option String) : Tag :=
  match tag with
  | some written => if written == "!" then standard else Tag.ofText written
  | none => standard

def leavesOut (ends : List Token) : List Token → Bool
  | token :: _ => ends.contains token
  | [] => false

/-- What reading nodes needs to know: the handles in force, what stopped the
tokens if they end too early, and how many containers may lie in each other. -/
structure Setting where
  handles : Handles
  stop : Trouble
  levels : Nat

def Setting.inner (setting : Setting) : Setting :=
  { setting with levels := setting.levels - 1 }

/-- The anchor and the tag of a node. A tag is looked up once it is known
whether an anchor follows. -/
def properties (setting : Setting) :
    List Token → Except Trouble (Properties × List Token)
  | .anchor name :: .tag handle suffix :: rest => do
      .ok (⟨some name, some (← tagText setting.handles handle suffix)⟩, rest)
  | .tag handle suffix :: .anchor name :: rest => do
      .ok (⟨some name, some (← tagText setting.handles handle suffix)⟩, rest)
  | .anchor name :: rest => .ok (⟨some name, none⟩, rest)
  | [.tag _ _] => .error setting.stop
  | .tag handle suffix :: rest => do
      .ok (⟨none, some (← tagText setting.handles handle suffix)⟩, rest)
  | rest => .ok (⟨none, none⟩, rest)

mutual

/-- A node. `block` says whether it may be an indented block, `level` whether a
sequence may stand at the same column as what it belongs to. -/
def readNode (setting : Setting) (block level : Bool) :
    Nat → List Token → Except Trouble (Tree × List Token)
  | 0, _ => .error .malformed
  | fuel + 1, tokens =>
      match tokens with
      | .alias name :: rest => .ok (.alias name, rest)
      | _ => do
          let (props, tokens) ← properties setting tokens
          match tokens with
          | [] => .error setting.stop
          | .scalar text plain :: rest =>
              .ok (.scalar props.anchor (scalarTag props.tag text plain) text,
                rest)
          | .flowSequenceStart :: rest => below setting.levels tooNested do
              let (items, after) ← readFlowItems setting.inner true fuel rest
              .ok (.sequence props.anchor (containerTag .seq props.tag) items,
                after)
          | .flowMappingStart :: rest => below setting.levels tooNested do
              let (entries, after) ←
                readFlowEntries setting.inner true fuel rest
              .ok (.mapping props.anchor (containerTag .map props.tag) entries,
                after)
          | token :: rest =>
              if level && token == .blockEntry then
                below setting.levels tooNested do
                  let (items, after) ← readLevelItems setting.inner fuel tokens
                  .ok (.sequence props.anchor (containerTag .seq props.tag)
                    items, after)
              else if block && token == .blockSequenceStart then
                below setting.levels tooNested do
                let (items, after) ← readBlockItems setting.inner fuel rest
                .ok (.sequence props.anchor (containerTag .seq props.tag) items,
                  after)
              else if block && token == .blockMappingStart then
                below setting.levels tooNested do
                let (entries, after) ← readBlockEntries setting.inner fuel rest
                .ok (.mapping props.anchor (containerTag .map props.tag)
                  entries, after)
              else if props.anchor.isSome || props.tag.isSome then
                .ok (.scalar props.anchor (scalarTag props.tag "" true) "",
                  tokens)
              else .error .malformed

def readOptional (setting : Setting) (block level : Bool) (ends : List Token) :
    Nat → List Token → Except Trouble (Tree × List Token)
  | 0, _ => .error .malformed
  | fuel + 1, tokens =>
      if leavesOut ends tokens then .ok (nothing, tokens)
      else if tokens.isEmpty then .error setting.stop
      else readNode setting block level fuel tokens

def readBlockItems (setting : Setting) :
    Nat → List Token → Except Trouble (List Tree × List Token)
  | 0, _ => .error .malformed
  | fuel + 1, tokens =>
      match tokens with
      | [] => .error setting.stop
      | .blockEnd :: rest => .ok ([], rest)
      | .blockEntry :: rest => do
          let (item, after) ←
            readOptional setting true false [.blockEntry, .blockEnd] fuel rest
          let (items, last) ← readBlockItems setting fuel after
          .ok (item :: items, last)
      | _ => .error .malformed

/-- The items of a sequence at the column of its key; it ends where no item
follows. -/
def readLevelItems (setting : Setting) :
    Nat → List Token → Except Trouble (List Tree × List Token)
  | 0, _ => .error .malformed
  | fuel + 1, tokens =>
      match tokens with
      | [] => .error setting.stop
      | .blockEntry :: rest => do
          let (item, after) ←
            readOptional setting true false
              [.blockEntry, .key, .value, .blockEnd] fuel rest
          let (items, last) ← readLevelItems setting fuel after
          .ok (item :: items, last)
      | _ => .ok ([], tokens)

def readBlockEntries (setting : Setting) :
    Nat → List Token → Except Trouble (List (Tree × Tree) × List Token)
  | 0, _ => .error .malformed
  | fuel + 1, tokens =>
      match tokens with
      | [] => .error setting.stop
      | .blockEnd :: rest => .ok ([], rest)
      | .key :: rest => do
          let (key, afterKey) ←
            readOptional setting true true [.key, .value, .blockEnd] fuel rest
          let (value, afterValue) ←
            readEntryValue setting true [.key, .value, .blockEnd] fuel afterKey
          let (entries, last) ← readBlockEntries setting fuel afterValue
          .ok ((key, value) :: entries, last)
      | _ => .error .malformed

def readEntryValue (setting : Setting) (block : Bool) (ends : List Token) :
    Nat → List Token → Except Trouble (Tree × List Token)
  | 0, _ => .error .malformed
  | fuel + 1, tokens =>
      match tokens with
      | [] => .error setting.stop
      | .value :: rest => readOptional setting block block ends fuel rest
      | _ => .ok (nothing, tokens)

def readFlowItems (setting : Setting) (first : Bool) :
    Nat → List Token → Except Trouble (List Tree × List Token)
  | 0, _ => .error .malformed
  | fuel + 1, tokens =>
      match tokens with
      | .flowSequenceEnd :: rest => .ok ([], rest)
      | _ => do
          match ← afterComma setting first tokens with
          | [] => .error setting.stop
          | .flowSequenceEnd :: rest => .ok ([], rest)
          | .key :: rest => below setting.levels tooNested do
              let (key, afterKey) ←
                readOptional setting.inner false false
                  [.value, .flowEntry, .flowSequenceEnd] fuel rest
              let (value, afterValue) ←
                readEntryValue setting.inner false
                  [.flowEntry, .flowSequenceEnd] fuel afterKey
              let (items, last) ← readFlowItems setting false fuel afterValue
              .ok (.mapping none .map [(key, value)] :: items, last)
          | start => do
              let (item, after) ← readNode setting false false fuel start
              let (items, last) ← readFlowItems setting false fuel after
              .ok (item :: items, last)

/-- The entries between braces, to the closing one. A node without a colon is a
key. -/
def readFlowEntries (setting : Setting) (first : Bool) :
    Nat → List Token → Except Trouble (List (Tree × Tree) × List Token)
  | 0, _ => .error .malformed
  | fuel + 1, tokens =>
      match tokens with
      | .flowMappingEnd :: rest => .ok ([], rest)
      | _ => do
          match ← afterComma setting first tokens with
          | [] => .error setting.stop
          | .flowMappingEnd :: rest => .ok ([], rest)
          | .key :: rest => do
              let (key, afterKey) ←
                readOptional setting false false
                  [.value, .flowEntry, .flowMappingEnd] fuel rest
              let (value, afterValue) ←
                readEntryValue setting false [.flowEntry, .flowMappingEnd]
                  fuel afterKey
              let (entries, last) ←
                readFlowEntries setting false fuel afterValue
              .ok ((key, value) :: entries, last)
          | start => do
              let (key, after) ← readNode setting false false fuel start
              let (entries, last) ← readFlowEntries setting false fuel after
              .ok ((key, nothing) :: entries, last)

def afterComma (setting : Setting) (first : Bool) :
    List Token → Except Trouble (List Token)
  | [] => .error setting.stop
  | .flowEntry :: rest => if first then .ok (.flowEntry :: rest) else .ok rest
  | tokens => if first then .ok tokens else .error .malformed

end

structure Header where
  version : Bool
  handles : Handles

/-- The directives in front of a document: one version at most, every handle
once. -/
def readDirectives (header : Header) :
    List Token → Except Trouble (Header × List Token)
  | .directive (.version major) :: rest =>
      if header.version || major != 1 then .error .malformed
      else readDirectives { header with version := true } rest
  | .directive (.handle name meaning) :: rest =>
      if (header.handles.lookup name).isSome then .error .malformed
      else readDirectives
        { header with handles := (name, meaning) :: header.handles } rest
  | .directive .other :: rest => readDirectives header rest
  | tokens => .ok (header, tokens)

/-- After the only document nothing may follow but marks of its end. The
directives of another are still read. -/
def checkEnd (stop : Trouble) (tokens : List Token) : Except Trouble Unit :=
  match tokens.dropWhile (· == .documentEnd) with
  | [] => .error stop
  | .streamEnd :: _ => .ok ()
  | others => do
      let (_, afterHeader) ← readDirectives ⟨false, []⟩ others
      .error (if afterHeader.isEmpty then stop else .malformed)

def readRoot (setting : Setting) (fuel : Nat) (tokens : List Token) :
    Except Trouble (Tree × List Token) :=
  match tokens with
  | [] => .error setting.stop
  | .directive _ :: _ => .ok (nothing, tokens)
  | .documentStart :: _ => .ok (nothing, tokens)
  | .documentEnd :: _ => .ok (nothing, tokens)
  | .streamEnd :: _ => .ok (nothing, tokens)
  | _ => readNode setting true false fuel tokens

def ofTokens (tokens : List Token) (stop : Trouble) :
    Except Trouble (Option Tree) := do
  let fuel := 4 * tokens.length + 4
  let plain := fun tokens =>
    readNode ⟨standardHandles, stop, nestingLimit⟩ true false fuel tokens
  let explicit := fun tokens => do
    let (header, afterHeader) ← readDirectives ⟨false, []⟩ tokens
    match afterHeader with
    | [] => .error stop
    | .documentStart :: rest =>
        readRoot ⟨header.handles ++ standardHandles, stop, nestingLimit⟩ fuel
          rest
    | _ => .error .malformed
  match tokens with
  | .streamEnd :: _ => .ok none
  | _ => do
      let (tree, rest) ←
        match tokens with
        | .directive _ :: _ => explicit tokens
        | .documentStart :: _ => explicit tokens
        | _ => plain tokens
      checkEnd stop rest
      .ok (some tree)

end Tree

end Fragments.Yaml
