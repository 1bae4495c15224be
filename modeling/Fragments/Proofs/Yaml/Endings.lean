import Fragments.Proofs.Yaml.Faults

namespace Fragments.Yaml

/-- Whatever is read, `holds` is true of it. -/
def Scan.Gives (holds : α → Prop) (step : Scan α) : Prop :=
  ∀ cursor, Yields (fun _ => True) (fun found => holds found.1) (step cursor)

namespace Scan.Gives

variable {holds : β → Prop}

theorem pure {value : β} (hvalue : holds value) :
    Gives holds (pure value : Scan β) :=
  fun _ => hvalue

theorem bind {step : Scan α} {next : α → Scan β}
    (hnext : ∀ value, Gives holds (next value)) :
    Gives holds (step >>= next) := by
  intro cursor
  show Yields _ _ (step cursor >>= fun found => next found.1 found.2)
  cases step cursor with
  | error trouble => trivial
  | ok found => exact hnext found.1 found.2

theorem map {step : Scan α} {change : α → β}
    (hchange : ∀ value, holds (change value)) :
    Gives holds (step.map change) :=
  bind fun value => pure (hchange value)

theorem ite {test : Prop} [Decidable test] {step other : Scan β}
    (hstep : Gives holds step) (hother : Gives holds other) :
    Gives holds (if test then step else other) := by
  split
  · exact hstep
  · exact hother

end Scan.Gives

def Token.IsInner (token : Token) : Prop := token ≠ .streamEnd

def AllInner (tokens : List Token) : Prop := ∀ token ∈ tokens, token.IsInner

theorem isInner_scanTag : scanTag.Gives Token.IsInner := by
  have hend (parts : Option String × String) : Scan.Gives Token.IsInner (do
      Scan.expect endsWord
      Pure.pure (Token.tag parts.1 parts.2)) := .bind fun _ => .pure nofun
  have hshort (handle : String) : Scan.Gives Token.IsInner (do
      let suffix ← scanTagText1
      Scan.expect endsWord
      Pure.pure (Token.tag (some handle) suffix)) := .bind fun _ => hend (_, _)
  refine .bind fun _ => .ite ?_ (.ite (.bind fun _ => .bind hend) ?_)
  · exact .bind fun _ => .bind fun _ => .bind fun _ => .bind fun _ => .bind hend
  · exact .bind fun _ => .ite (.bind hshort) (.bind fun _ => .bind hshort)

theorem isInner_scanDirective : scanDirective.Gives Token.IsInner := by
  have hend (directive : Directive) : Scan.Gives Token.IsInner (do
      skipRestOfLine
      Pure.pure (Token.directive directive)) := .bind fun _ => .pure nofun
  exact .bind fun _ => .bind fun _ => .bind fun _ =>
    .ite (.bind hend) (.ite (.bind hend) (.bind fun _ => .bind hend))

namespace Scanner

def Inner (scanner : Scanner) : Prop := AllInner scanner.tokens

/-- Whatever the scanner becomes, it is still inside. -/
abbrev StaysInner (outcome : Except Trouble Scanner) : Prop :=
  Yields (fun _ => True) Inner outcome

variable {scanner : Scanner}

theorem Inner.push {token : Token} (hinner : scanner.Inner)
    (htoken : token.IsInner) :
    (scanner.push token).Inner :=
  List.forall_mem_cons.mpr ⟨htoken, hinner⟩

theorem Inner.insert {token : Token} (hinner : scanner.Inner)
    (htoken : token.IsInner) (place : Nat) :
    (scanner.insert place token).Inner := by
  intro other hmem
  rcases List.mem_append.mp hmem with hmem | hmem
  · exact hinner other (List.mem_of_mem_take hmem)
  · rcases List.mem_cons.mp hmem with rfl | hmem
    · exact htoken
    · exact hinner other (List.mem_of_mem_drop hmem)

theorem Inner.unwind (hinner : scanner.Inner) (column : Int) :
    (scanner.unwind column).Inner := by
  have hgo (indents : List Int) {scanner : Scanner} (hinner : scanner.Inner) :
      (unwind.go column indents scanner).Inner := by
    induction indents generalizing scanner with
    | nil => exact hinner
    | cons outer rest ih =>
        rw [unwind.go]
        split
        · exact ih (List.forall_mem_cons.mpr ⟨nofun, hinner⟩)
        · exact hinner
  unfold Scanner.unwind
  split
  · exact hgo _ hinner
  · exact hinner

theorem Inner.openBlock {token : Token} (hinner : scanner.Inner)
    (htoken : token.IsInner) :
    (scanner.openBlock token).Inner := by
  unfold Scanner.openBlock
  simp only
  split
  · exact List.forall_mem_cons.mpr ⟨htoken, hinner⟩
  · exact hinner

theorem Inner.announce (hinner : scanner.Inner) (key : PossibleKey) :
    (scanner.announce key).Inner := by
  have hforgot : scanner.forgetKey.Inner := hinner
  have hkeyed : (scanner.forgetKey.insert key.token .key).Inner :=
    hforgot.insert (show Token.key.IsInner from nofun) key.token
  have hdeeper :
      ((scanner.forgetKey.insert key.token .key).indentTo key.column).Inner :=
    hkeyed
  unfold Scanner.announce
  simp only
  split
  · exact hdeeper.insert
      (show Token.blockMappingStart.IsInner from nofun) key.token
  · exact hkeyed

theorem Inner.scan (hinner : scanner.Inner) {holds : α → Prop} {step : Scan α}
    (hstep : step.Gives holds) :
    Yields (fun _ => True)
    (fun found : α × Scanner => holds found.1 ∧ found.2.Inner)
      (scanner.scan step) := by
  have hfound := hstep scanner.cursor
  unfold Scanner.scan
  cases hcase : step scanner.cursor with
  | error trouble => trivial
  | ok found =>
      rw [hcase] at hfound
      exact ⟨hfound, hinner⟩

theorem gives_any (step : Scan α) : step.Gives fun _ => True := fun cursor => by
  cases step cursor <;> trivial

theorem Inner.skipOrderMark (hinner : scanner.Inner) :
    scanner.skipOrderMark.Inner := by
  unfold Scanner.skipOrderMark
  split
  · exact hinner
  · exact hinner

theorem Inner.skipToToken (hinner : scanner.Inner) (fuel : Nat) :
    StaysInner (skipToToken fuel scanner) := by
  induction fuel generalizing scanner with
  | zero => exact hinner
  | succ fuel ih =>
      refine (hinner.scan (gives_any _)).bind
        fun (found, after) ⟨_, hafter⟩ => ?_
      cases found with
      | none => exact hafter
      | some _ =>
          refine ih ?_
          split
          · exact hafter
          · exact hafter

theorem Inner.dropStale (hinner : scanner.Inner) :
    StaysInner scanner.dropStale := by
  unfold Scanner.dropStale
  split
  · trivial
  · exact hinner

theorem Inner.dropKey (hinner : scanner.Inner) :
    StaysInner scanner.dropKey := by
  unfold Scanner.dropKey
  split
  · split
    · trivial
    · exact hinner
  · exact hinner

theorem Inner.noteKey (hinner : scanner.Inner) :
    StaysInner scanner.noteKey := by
  unfold Scanner.noteKey
  split
  · exact hinner.dropKey.bind fun _ hcleared => hcleared
  · exact hinner

theorem Inner.endBlocks (hinner : scanner.Inner) :
    StaysInner scanner.endBlocks :=
  (hinner.unwind (-1)).dropKey.bind fun _ hcleared => hcleared

section

variable (hinner : scanner.Inner)
include hinner

theorem Inner.fetchDirective : StaysInner scanner.fetchDirective :=
  hinner.endBlocks.bind fun _ hended =>
    (hended.scan isInner_scanDirective).bind fun _ ⟨htoken, hafter⟩ =>
      hafter.push htoken

theorem Inner.fetchSeparator {token : Token} (htoken : token.IsInner) :
    StaysInner (scanner.fetchSeparator token) :=
  hinner.endBlocks.bind fun _ hended =>
    List.forall_mem_cons.mpr ⟨htoken, hended⟩

theorem Inner.fetchOpening {token : Token} (htoken : token.IsInner) :
    StaysInner (scanner.fetchOpening token) :=
  hinner.noteKey.bind fun _ hnoted => List.forall_mem_cons.mpr ⟨htoken, hnoted⟩

theorem Inner.fetchClosing {token : Token} (htoken : token.IsInner) :
    StaysInner (scanner.fetchClosing token) := by
  refine hinner.dropKey.bind fun _ hcleared => ?_
  split
  · trivial
  · exact List.forall_mem_cons.mpr ⟨htoken, hcleared⟩

theorem Inner.allowKey (allowed : Bool) :
    (scanner.allowKey allowed).Inner := hinner

theorem Inner.fetchFlowEntry : StaysInner scanner.fetchFlowEntry :=
  (hinner.allowKey true).dropKey.bind fun _ hcleared =>
    List.forall_mem_cons.mpr ⟨nofun, hcleared⟩

theorem Inner.fetchBlockEntry : StaysInner scanner.fetchBlockEntry := by
  unfold Scanner.fetchBlockEntry
  split
  · trivial
  · have hopened :
        (if scanner.brackets == 0 then scanner.openBlock .blockSequenceStart
          else scanner).Inner := by
      split
      · exact hinner.openBlock nofun
      · exact hinner
    exact (hopened.allowKey true).dropKey.bind fun _ hcleared =>
      List.forall_mem_cons.mpr ⟨nofun, hcleared⟩

theorem Inner.fetchIndicator {token : Token} (htoken : token.IsInner) :
    StaysInner (scanner.fetchIndicator token) := by
  unfold Scanner.fetchIndicator
  split
  · trivial
  · have hopened :
        (if scanner.brackets == 0 then scanner.openBlock .blockMappingStart
          else scanner).Inner := by
      split
      · exact hinner.openBlock nofun
      · exact hinner
    exact (hopened.allowKey _).dropKey.bind fun _ hcleared =>
      List.forall_mem_cons.mpr ⟨htoken, hcleared⟩

theorem Inner.fetchValue : StaysInner scanner.fetchValue := by
  unfold Scanner.fetchValue
  split
  · next key _ => exact List.forall_mem_cons.mpr ⟨nofun, hinner.announce key⟩
  · exact hinner.fetchIndicator nofun

theorem Inner.fetchNode {step : Scan Token} (hstep : step.Gives Token.IsInner) :
    StaysInner (scanner.fetchNode step) :=
  hinner.noteKey.bind fun _ hnoted =>
    ((hnoted.allowKey false).scan hstep).bind fun _ ⟨htoken, hafter⟩ =>
      hafter.push htoken

theorem Inner.fetchBlockScalar (folded : Bool) :
    StaysInner (scanner.fetchBlockScalar folded) :=
  (hinner.allowKey true).dropKey.bind fun _ hcleared =>
    (hcleared.scan (gives_any _)).bind fun _ ⟨_, hafter⟩ => hafter.push nofun

theorem Inner.fetchPlain : StaysInner scanner.fetchPlain :=
  hinner.noteKey.bind fun _ hnoted =>
    (hnoted.scan (gives_any _)).bind fun _ ⟨_, hafter⟩ =>
      (hafter.allowKey _).push nofun

theorem Inner.fetch : StaysInner scanner.fetch :=
  .ite hinner.fetchDirective <|
  .ite (hinner.fetchSeparator nofun) <|
  .ite (hinner.fetchSeparator nofun) <|
  .ite (hinner.fetchOpening nofun) <|
  .ite (hinner.fetchOpening nofun) <|
  .ite (hinner.fetchClosing nofun) <|
  .ite (hinner.fetchClosing nofun) <|
  .ite hinner.fetchFlowEntry <|
  .ite hinner.fetchBlockEntry <|
  .ite (hinner.fetchIndicator nofun) <|
  .ite hinner.fetchValue <|
  .ite (hinner.fetchNode (.map fun _ => nofun)) <|
  .ite (hinner.fetchNode (.map fun _ => nofun)) <|
  .ite (hinner.fetchNode isInner_scanTag) <|
  .ite (hinner.fetchBlockScalar _) <|
  .ite (hinner.fetchBlockScalar _) <|
  .ite (hinner.fetchNode (.map fun _ => nofun)) <|
  .ite (hinner.fetchNode (.map fun _ => nofun)) <|
  .ite hinner.fetchPlain trivial

end

theorem Inner.settled (hinner : scanner.Inner) : AllInner scanner.settled :=
  fun token hmem =>
    hinner token (List.mem_reverse.mp (List.mem_of_mem_take hmem))

theorem inner_of_scanAll {fuel : Nat} {trouble : Trouble}
    (hinner : scanner.Inner)
    (hstopped : (scanAll fuel scanner).2 = some trouble) :
    AllInner (scanAll fuel scanner).1 := by
  induction fuel generalizing scanner with
  | zero => exact hinner.settled
  | succ fuel ih =>
      have hahead : StaysInner (do
          let next ← Scanner.skipToToken (scanner.cursor.rest.length + 1)
            scanner.skipOrderMark
          let fresh ← next.dropStale
          .ok (fresh.unwind fresh.cursor.column)) :=
        (hinner.skipOrderMark.skipToToken _).bind fun _ hnext =>
          hnext.dropStale.bind fun _ hfresh => hfresh.unwind _
      unfold scanAll at hstopped ⊢
      dsimp only at hstopped ⊢
      split at hstopped
      · exact hinner.settled
      · next next hnext =>
          rw [hnext] at hahead
          have hafter : next.Inner := hahead
          split at hstopped
          · next hempty =>
              rw [if_pos hempty]
              split at hstopped
              · exact hinner.settled
              · cases hstopped
          · next hsome =>
              rw [if_neg hsome]
              have hfetched := hafter.fetch
              split at hstopped
              · exact hinner.settled
              · next after hafter =>
                  rw [hafter] at hfetched
                  exact ih hfetched hstopped

end Scanner

theorem inner_of_tokenize {chars : List Char} {trouble : Trouble}
    (hstopped : (tokenize chars).2 = some trouble) :
    AllInner (tokenize chars).1 :=
  Scanner.inner_of_scanAll (fun _ hmem => absurd hmem List.not_mem_nil) hstopped

theorem streamEnd_of_parse_eq {chars : List Char} {found : Option Tree}
    (hparse : parse chars = .ok found) : .streamEnd ∈ (tokenize chars).1 := by
  have hend : Yields _ (fun _ => .streamEnd ∈ (tokenize chars).1)
      (parse chars) :=
    Tree.yields_ofTokens _ _
  rw [hparse] at hend
  exact hend

/-- A text that cannot be cut up to its end is not read. -/
theorem read_ne_ok {chars : List Char} {trouble : Trouble}
    (hstopped : (tokenize chars).2 = some trouble) (value : Value) :
    read chars ≠ .ok value := by
  intro hread
  unfold read at hread
  split at hread
  · cases hread
  · obtain ⟨found, hparse, -⟩ := bind_eq_ok_iff.mp hread
    exact absurd rfl (inner_of_tokenize hstopped _
      (streamEnd_of_parse_eq hparse))

end Fragments.Yaml
