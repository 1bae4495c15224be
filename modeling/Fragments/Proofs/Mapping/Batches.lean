import Fragments.Proofs.Data.Display
import Fragments.Proofs.Mapping.History
import Fragments.Proofs.Text.Basic

namespace Fragments

namespace Value

/-- The values for kind and tokens in data that has a place for both. -/
def entryParts? : Value → Option (Value × Value)
  | mapping _ entries =>
      some ((field? entries "kind").getD null,
        (field? entries "tokens").getD null)
  | list _ [kind, tokens] => some (kind, tokens)
  | pair kind tokens => some (kind, tokens)
  | set _ [kind, tokens] => some (scalar kind, scalar tokens)
  | _ => none

/-- The text of a kind before it is trimmed; null has none. -/
def kindText : Value → Except Fault String
  | scalar .null => .ok ""
  | value => value.plain

/-- The texts that tokens are given as: none, the pieces of a text between
commas, or those of the items of a list. No other value gives tokens. -/
def tokenTexts? : Value → Option (List (Except Fault String))
  | scalar .null => some []
  | scalar (.text text) => some ((Text.split ',' text).map .ok)
  | list _ items => some (items.map plain)
  | pair first second => some ([first, second].map plain)
  | _ => none

/-- Loose data that is no entry: a text, a number, or a list or a set of other
than two items, or what has a place for tokens and something there that is none;
also what has a number that is too long for a text. -/
inductive Malformed : Value → Prop
  | noParts (hparts : value.entryParts? = none) : Malformed value
  | noTokens (hparts : value.entryParts? = some (kind, tokens))
      (htokens : tokens.tokenTexts? = none) :
      Malformed value
  | longKind (hparts : value.entryParts? = some (kind, tokens))
      (hkind : kind.kindText = .error fault) :
      Malformed value
  | longToken (hparts : value.entryParts? = some (kind, tokens))
      (htokens : tokens.tokenTexts? = some texts)
      (hlong : .error fault ∈ texts) : Malformed value

end Value

namespace EntryInput

inductive Malformed : EntryInput → Prop
  | loose (hvalue : value.Malformed) : Malformed (.loose value)

end EntryInput

theorem mapM_eq_ok_iff_map_eq {change : α → Except ε β} {items : List α}
    {results : List β} :
    items.mapM change = .ok results ↔ items.map change = results.map .ok := by
  rw [mapM_eq_ok_iff, ← List.forall₂_eq_eq_eq, List.forall₂_map_left_iff,
    List.forall₂_map_right_iff]

namespace MappingEntry

theorem isValid_eq_false_iff {entry : MappingEntry} :
    entry.isValid = false ↔ entry.kind = "" ∨ entry.tokens = [] := by
  rw [isValid, Bool.and_eq_false_iff]
  simp

theorem cleanTokens_eq_nil_iff {texts : List String} :
    cleanTokens texts = [] ↔ ∀ text ∈ texts, Text.isBlankText text = true := by
  simp [cleanTokens, Text.trim_eq_empty_iff]

theorem readKind_eq_ok_iff {value : Value} {kind : String} :
    readKind value = .ok kind ↔ ∃ text, value.kindText = .ok text ∧
      Text.trim text = kind := by
  unfold readKind
  split
  · simp [Value.kindText, show Text.trim "" = "" from rfl]
  · next hother =>
      rw [Value.kindText]
      · cases value.plain <;> simp
      · exact hother

theorem readTokens_eq_ok_iff {value : Value} {tokens : List String} :
    readTokens value = .ok tokens ↔
      ∃ texts, value.tokenTexts? = some (texts.map .ok) ∧
        cleanTokens texts = tokens := by
  unfold readTokens Value.tokenTexts?
  split
  · simp [show cleanTokens [] = [] from rfl]
  · next text =>
      have hinj : Function.Injective
          (List.map (Except.ok (ε := Fault) (α := String))) :=
        List.map_injective_iff.mpr fun _ _ => Except.ok.inj
      simp [hinj.eq_iff]
  · simp only [Option.some.injEq, ← mapM_eq_ok_iff_map_eq]
    split <;> simp_all
  · simp only [Option.some.injEq, ← mapM_eq_ok_iff_map_eq]
    split <;> simp_all
  · simp

theorem ofParts_eq_ok_iff {kind tokens : Value} {entry : MappingEntry} :
    ofParts kind tokens = .ok entry ↔
      readKind kind = .ok entry.kind ∧
        readTokens tokens = .ok entry.tokens := by
  obtain ⟨own, texts⟩ := entry
  unfold ofParts
  cases readKind kind <;> cases readTokens tokens <;> simp

end MappingEntry

namespace Registry

theorem malformed_ne_ok (value : Value) (entry : MappingEntry) :
    malformed value ≠ .ok entry := by
  intro hok
  obtain ⟨shown, -, hfailed⟩ := bind_eq_ok_iff.mp hok
  cases hfailed

theorem readEntry_loose (value : Value) :
    readEntry (.loose value) =
      match value.entryParts? with
      | some (kind, tokens) =>
          match MappingEntry.ofParts kind tokens with
          | .ok entry => .ok entry
          | .error _ => malformed value
      | none => malformed value := by
  fun_cases Value.entryParts? value with
  | case1 | case2 | case3 | case4 => rfl
  | case5 => simp only [readEntry]

theorem readEntry_loose_eq_ok_iff {value : Value} {entry : MappingEntry} :
    readEntry (.loose value) = .ok entry ↔
      ∃ kind tokens, value.entryParts? = some (kind, tokens) ∧
        MappingEntry.ofParts kind tokens = .ok entry := by
  rw [readEntry_loose]
  cases value.entryParts? with
  | none => simp [malformed_ne_ok]
  | some parts =>
      obtain ⟨kind, tokens⟩ := parts
      cases hparts : MappingEntry.ofParts kind tokens <;>
        simp [malformed_ne_ok, hparts]

/-- The value is the first of a batch that cannot be read. -/
def IsFirstMalformed (items : List EntryInput) (value : Value) : Prop :=
  value.Malformed ∧ ∃ before after, items = before ++ .loose value :: after ∧
    ∀ earlier ∈ before, ¬earlier.Malformed

theorem IsFirstMalformed.mem {items : List EntryInput} {value : Value}
    (hvalue : IsFirstMalformed items value) : .loose value ∈ items := by
  obtain ⟨-, before, after, rfl, -⟩ := hvalue
  simp

theorem IsFirstMalformed.unique {items : List EntryInput} {value other : Value}
    (hvalue : IsFirstMalformed items value)
    (hother : IsFirstMalformed items other) :
    value = other := by
  obtain ⟨hmalformed, before, after, rfl, hbefore⟩ := hvalue
  obtain ⟨hmalformed', before', after', heq, hbefore'⟩ := hother
  rcases List.append_eq_append_iff.mp heq with
    ⟨between, rfl, htail⟩ | ⟨between, rfl, htail⟩
  · cases between with
    | nil =>
        cases htail
        rfl
    | cons item rest =>
        cases htail
        exact absurd (.loose hmalformed) (hbefore' _ (by simp))
  · cases between with
    | nil =>
        cases htail
        rfl
    | cons item rest =>
        cases htail
        exact absurd (.loose hmalformed') (hbefore _ (by simp))

/-- What changes a registry place by place, and may end early with what it has
written by then. -/
abbrev Writing := ExceptT Problem (StateM Registry)

def writeToken (kind token : String) : Writing Unit :=
  modify fun registry =>
    { registry with
      kindOfToken :=
        Entries.assign (· == ·) (Text.lower token) kind registry.kindOfToken }

/-- An entry without tokens ends the writing, for there is none to stand for its
kind. -/
def writeEntry (entry : MappingEntry) : Writing Unit := do
  entry.tokens.forM (writeToken entry.kind)
  match entry.tokens.getLast? with
  | none => throw (.fault .tooShort)
  | some token =>
      modify fun registry =>
        { registry with
          tokenOfKind :=
            Entries.assign (· == ·) entry.kind token registry.tokenOfKind }
  modify fun registry =>
    { registry with
      tokensOfKind :=
        Entries.assign (· == ·) entry.kind entry.tokens registry.tokensOfKind }

/-- Entries that have not been checked can end the writing half way. -/
example : ([⟨"Pod", ["pod"]⟩, ⟨"Job", []⟩].forM writeEntry).run empty =
    (.error (.fault .tooShort), empty.add ⟨"Pod", ["pod"]⟩) := by
  rfl

end Registry

end Fragments
