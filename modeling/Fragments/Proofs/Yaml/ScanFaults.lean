import Fragments.Proofs.Data.Outcome
import Fragments.Yaml.Scanner

namespace Fragments.Yaml

/-- A malformed text, what lies beyond, or a fault that `allowed` holds of. -/
def Trouble.Within (allowed : Fault → Prop) : Trouble → Prop
  | .malformed => True
  | .fault found => found.isBeyond = true ∨ allowed found

/-- The faults of cutting a text: an escape by a code that no character has, or
a version of too many digits. -/
inductive Uncuttable : Fault → Prop
  | code : Uncuttable (.value "chr() arg not in range(0x110000)")
  | hugeCode : Uncuttable .overflow
  | version {count : Nat} (hcount : Number.digitLimit < count) :
      Uncuttable (Number.tooManyDigits count)

/-- Whatever the step fails with, it is expected of a scanner. -/
def Scan.Expected (step : Scan α) : Prop :=
  ∀ cursor, FailsOnly (Trouble.Within Uncuttable) (step cursor)

namespace Scan.Expected

theorem pure (value : α) : Expected (pure value : Scan α) :=
  fun _ => .ok _

theorem bind {step : Scan α} {next : α → Scan β} (hstep : Expected step)
    (hnext : ∀ value, Expected (next value)) : Expected (step >>= next) :=
  fun cursor => (hstep cursor).bind fun (value, after) _ => hnext value after

theorem map {step : Scan α} (hstep : Expected step) (change : α → β) :
    Expected (step.map change) :=
  fun cursor => (hstep cursor).bind fun _ _ => .ok _

theorem ite {test : Prop} [Decidable test] {step other : Scan α}
    (hstep : Expected step) (hother : Expected other) :
    Expected (if test then step else other) := by
  split
  · exact hstep
  · exact hother

theorem get : Expected (get : Scan Cursor) :=
  fun _ => .ok _

theorem malformed : Expected (malformed : Scan α) :=
  fun _ => .error trivial

theorem peek (offset : Nat) : Expected (Scan.peek offset) :=
  fun _ => .ok _

theorem column : Expected Scan.column :=
  fun _ => .ok _

theorem remaining : Expected Scan.remaining :=
  fun _ => .ok _

theorem atSeparator : Expected Scan.atSeparator :=
  fun _ => .ok _

theorem skip (count : Nat) : Expected (Scan.skip count) :=
  fun _ => .ok _

theorem expect (p : Char → Bool) : Expected (Scan.expect p) := by
  intro cursor
  unfold Scan.expect
  split
  · exact .ok _
  · exact .error trivial

theorem run (p : Char → Bool) : Expected (Scan.run p) :=
  fun _ => .ok _

theorem run1 (p : Char → Bool) : Expected (Scan.run1 p) := by
  refine (run p).bind fun found => ?_
  split
  · exact malformed
  · exact pure _

theorem skipSpaces : Expected Scan.skipSpaces :=
  (run _).bind fun _ => pure _

theorem skipComment : Expected Scan.skipComment :=
  (peek 0).bind fun _ => ite ((run _).bind fun _ => pure _) (pure _)

theorem lineBreak : Expected Scan.lineBreak :=
  (peek 0).bind fun _ => (peek 1).bind fun _ =>
    ite ((skip 2).bind fun _ => pure _)
      (ite ((skip 1).bind fun _ => pure _)
        (ite ((skip 1).bind fun _ => pure _) (pure _)))

theorem scanName : Expected scanName :=
  (skip 1).bind fun _ => (run1 _).bind fun _ => (expect _).bind fun _ => pure _

theorem scanTagBytes (fuel : Nat) : Expected (scanTagBytes fuel) := by
  induction fuel with
  | zero => exact pure _
  | succ fuel ih =>
      refine (peek 0).bind fun _ => ite ?_ (pure _)
      refine (peek 1).bind fun _ => (peek 2).bind fun _ => ?_
      split
      · exact (skip 3).bind fun _ => ih.bind fun _ => pure _
      · exact malformed

theorem scanTagText (fuel : Nat) : Expected (scanTagText fuel) := by
  induction fuel with
  | zero => exact pure _
  | succ fuel ih =>
      refine (run _).bind fun _ => (peek 0).bind fun _ => ite ?_ (pure _)
      refine remaining.bind fun _ => (scanTagBytes _).bind fun _ => ?_
      split
      · exact malformed
      · exact ih.bind fun _ => pure _

theorem scanTagText1 : Expected scanTagText1 :=
  remaining.bind fun _ => (scanTagText _).bind fun _ => remaining.bind fun _ =>
    ite malformed (pure _)

theorem scanHandle : Expected scanHandle :=
  (expect _).bind fun _ => (peek 1).bind fun _ =>
    ite ((skip 1).bind fun _ => pure _)
      ((skip 1).bind fun _ => (run _).bind fun _ => (expect _).bind fun _ =>
        (skip 1).bind fun _ =>
          pure _)

theorem scanTag : Expected scanTag := by
  refine (peek 1).bind fun _ => ?_
  have hend (parts : Option String × String) : Expected (do
      Scan.expect endsWord
      Pure.pure (Token.tag parts.1 parts.2)) := (expect _).bind fun _ => pure _
  have hshort (handle : String) : Expected (do
      let suffix ← Yaml.scanTagText1
      Scan.expect endsWord
      Pure.pure (Token.tag (some handle) suffix)) :=
    scanTagText1.bind fun _ => hend (_, _)
  refine ite ?_ (ite ((skip 1).bind fun _ => (pure _).bind hend) ?_)
  · exact (skip 2).bind fun _ => scanTagText1.bind fun _ =>
      (expect _).bind fun _ =>
        (skip 1).bind fun _ => (pure _).bind hend
  · exact get.bind fun _ => ite (scanHandle.bind hshort)
      ((skip 1).bind fun _ => (pure _).bind hshort)

theorem scanNumber : Expected scanNumber := by
  refine (run1 _).bind fun digits => ?_
  split
  · next hlong => exact fun _ => .error (.inr (.version hlong))
  · exact pure _

theorem scanVersion : Expected scanVersion :=
  skipSpaces.bind fun _ => scanNumber.bind fun _ => (expect _).bind fun _ =>
    (skip 1).bind fun _ =>
      scanNumber.bind fun _ => (expect _).bind fun _ => pure _

theorem scanHandleMeaning : Expected scanHandleMeaning :=
  skipSpaces.bind fun _ => scanHandle.bind fun _ => (expect _).bind fun _ =>
    skipSpaces.bind fun _ =>
      scanTagText1.bind fun _ => (expect _).bind fun _ => pure _

theorem skipRestOfLine : Expected skipRestOfLine :=
  skipSpaces.bind fun _ => skipComment.bind fun _ => (expect _).bind fun _ =>
    lineBreak.bind fun _ => pure _

theorem scanDirective : Expected scanDirective := by
  have hend (directive : Directive) : Expected (do
      Yaml.skipRestOfLine
      Pure.pure (Token.directive directive)) :=
        skipRestOfLine.bind fun _ => pure _
  refine (skip 1).bind fun _ => (run1 _).bind fun _ => (expect _).bind
    fun _ => ?_
  exact ite (scanVersion.bind hend) (ite (scanHandleMeaning.bind hend)
    ((run _).bind fun _ => (pure _).bind hend))

theorem charOfCode (code : Nat) : Expected (charOfCode code) :=
  ite (pure _) (ite (fun _ => .error (.inl rfl))
    (ite (fun _ => .error (.inr .code)) fun _ => .error (.inr .hugeCode)))

theorem scanCode (length : Nat) : Expected (scanCode length) := by
  intro cursor
  unfold Yaml.scanCode
  split
  · split
    · exact ((charOfCode _).bind fun _ => (skip _).bind fun _ => pure _) cursor
    · exact .error trivial
  · exact .error trivial

theorem scanQuotedBreaks (fuel : Nat) : Expected (scanQuotedBreaks fuel) := by
  induction fuel with
  | zero => exact pure _
  | succ fuel ih =>
      refine atSeparator.bind fun _ => ite malformed ?_
      refine (run _).bind fun _ => lineBreak.bind fun found => ?_
      cases found with
      | some _ => exact ih.bind fun _ => pure _
      | none => exact pure _

theorem scanEscape : Expected scanEscape := by
  refine (peek 1).bind fun c => ?_
  split
  · exact (skip 2).bind fun _ => pure _
  · exact (skip 2).bind fun _ => (scanCode _).bind fun _ => pure _
  · exact ite ((skip 1).bind fun _ => lineBreak.bind fun _ =>
      remaining.bind fun _ =>
        scanQuotedBreaks _) malformed

theorem scanQuotedBlanks : Expected scanQuotedBlanks := by
  refine (run _).bind fun _ => (peek 0).bind fun _ => ite malformed ?_
  refine lineBreak.bind fun found => ?_
  cases found with
  | some _ =>
      exact remaining.bind fun _ => (scanQuotedBreaks _).bind fun _ => pure _
  | none => exact pure _

theorem scanQuotedBody (double : Bool) (fuel : Nat) :
    Expected (scanQuotedBody double fuel) := by
  induction fuel with
  | zero => exact malformed
  | succ fuel ih =>
      refine (peek 0).bind fun c => (peek 1).bind fun _ => ?_
      have hend (piece : List Char) : Expected
          (if (c == '\'' && !double && piece.isEmpty) ||
            (c == '"' && double) then Pure.pure []
          else do
            let rest ← Yaml.scanQuotedBody double fuel
            Pure.pure (piece ++ rest)) := ite (pure _) (ih.bind fun _ => pure _)
      refine ite ((run _).bind hend)
        (ite ((skip 2).bind fun _ => (pure _).bind hend) ?_)
      refine ite ((skip 1).bind fun _ => (pure _).bind hend)
        (ite (scanEscape.bind hend) ?_)
      exact ite ((pure _).bind hend) (scanQuotedBlanks.bind hend)

theorem scanQuoted (double : Bool) : Expected (scanQuoted double) :=
  (skip 1).bind fun _ => remaining.bind fun _ =>
    (scanQuotedBody _ _).bind fun _ =>
      (skip 1).bind fun _ => pure _

theorem scanChomping : Expected scanChomping :=
  (peek 0).bind fun _ => ite ((skip 1).bind fun _ => pure _)
    (ite ((skip 1).bind fun _ => pure _) (pure _))

theorem scanIncrement : Expected scanIncrement :=
  (peek 0).bind fun _ =>
    ite malformed (ite ((skip 1).bind fun _ => pure _) (pure _))

theorem scanBlockHeader : Expected scanBlockHeader := by
  have hend (chomping : Option Chomping) (increment : Option Nat)
      (after : Option Chomping) :
      Expected (do
        Scan.expect endsWord
        Scan.skipSpaces
        Scan.skipComment
        Scan.expect endsLine
        let _ ← Scan.lineBreak
        Pure.pure
          (BlockHeader.mk ((chomping.or after).getD .clip) increment)) :=
    (expect _).bind fun _ => skipSpaces.bind fun _ => skipComment.bind fun _ =>
      (expect _).bind fun _ => lineBreak.bind fun _ => pure _
  refine scanChomping.bind fun _ => scanIncrement.bind fun _ => ?_
  exact ite (scanChomping.bind (hend _ _)) ((pure _).bind (hend _ _))

theorem scanIndentation (fuel deepest : Nat) :
    Expected (scanIndentation fuel deepest) := by
  induction fuel generalizing deepest with
  | zero => exact pure _
  | succ fuel ih =>
      refine (peek 0).bind fun _ =>
        ite ((skip 1).bind fun _ => column.bind fun _ => ih _) ?_
      refine lineBreak.bind fun found => ?_
      cases found with
      | some _ => exact (ih _).bind fun _ => pure _
      | none => exact pure _

theorem skipToColumn (target fuel : Nat) :
    Expected (skipToColumn target fuel) := by
  induction fuel with
  | zero => exact pure _
  | succ fuel ih =>
      exact column.bind fun _ => (peek 0).bind fun _ =>
        ite ((skip 1).bind fun _ => ih) (pure _)

theorem scanBlockBreaks (indent fuel : Nat) :
    Expected (scanBlockBreaks indent fuel) := by
  induction fuel with
  | zero => exact pure _
  | succ fuel ih =>
      refine (skipToColumn _ _).bind fun _ => lineBreak.bind fun found => ?_
      cases found with
      | some _ => exact ih.bind fun _ => pure _
      | none => exact pure _

theorem scanBlockLines (folded : Bool) (chomping : Chomping) (indent fuel : Nat)
    (breaks : List Char) (last : Option Char) :
    Expected (scanBlockLines folded chomping indent fuel breaks last) := by
  induction fuel generalizing breaks last with
  | zero => exact pure _
  | succ fuel ih =>
      refine (peek 0).bind fun _ => column.bind fun _ => ite ?_ (pure _)
      exact (run _).bind fun _ => lineBreak.bind fun _ =>
        remaining.bind fun _ =>
          (scanBlockBreaks _ _).bind fun _ => (peek 0).bind fun _ =>
            column.bind fun _ =>
              (ih _ _).bind fun _ => pure _

theorem scanBlock (folded : Bool) (parent : Int) :
    Expected (scanBlock folded parent) := by
  refine (skip 1).bind fun _ => scanBlockHeader.bind fun header => ?_
  have hend (found : List Char × Nat) : Expected (do
      let text ← Yaml.scanBlockLines folded header.chomping found.2
          ((← Scan.remaining) + 1) found.1 none
      Pure.pure (String.ofList text)) :=
    remaining.bind fun _ => (scanBlockLines _ _ _ _ _ _).bind fun _ => pure _
  dsimp only
  split
  · exact remaining.bind fun _ => (scanIndentation _ _).bind fun _ =>
      (pure _).bind hend
  · exact remaining.bind fun _ => (scanBlockBreaks _ _).bind fun _ =>
      (pure _).bind hend

theorem scanPlainBreaks (fuel : Nat) : Expected (scanPlainBreaks fuel) := by
  induction fuel with
  | zero => exact pure _
  | succ fuel ih =>
      refine atSeparator.bind fun _ => ite (pure _) ?_
      refine skipSpaces.bind fun _ => lineBreak.bind fun found => ?_
      cases found with
      | some _ => exact ih.bind fun _ => pure _
      | none => exact pure _

theorem scanPlainBlanks : Expected scanPlainBlanks := by
  refine (run _).bind fun _ => lineBreak.bind fun found => ?_
  cases found with
  | some _ =>
      refine remaining.bind fun _ => (scanPlainBreaks _).bind fun breaks => ?_
      cases breaks <;> exact pure _
  | none => exact pure _

theorem scanPlainFrom (flow : Bool) (indent : Int) (fuel : Nat)
    (blanks : List Char) (broken : Bool) :
    Expected (scanPlainFrom flow indent fuel blanks broken) := by
  induction fuel generalizing blanks broken with
  | zero => exact pure _
  | succ fuel ih =>
      refine get.bind fun _ => (peek 0).bind fun _ => ite (pure _) ?_
      exact get.bind fun _ => (skip _).bind fun _ =>
        scanPlainBlanks.bind fun _ =>
          (peek 0).bind fun _ => column.bind fun _ =>
            ite (pure _) ((ih _ _).bind fun _ => pure _)

theorem scanPlain (flow : Bool) (parent : Int) :
    Expected (scanPlain flow parent) :=
  remaining.bind fun _ => (scanPlainFrom _ _ _ _ _).bind fun _ => pure _

end Scan.Expected

namespace Scanner

/-- Whatever a step between tokens fails with, it is expected of a scanner. -/
abbrev Expected (outcome : Except Trouble α) : Prop :=
  FailsOnly (Trouble.Within Uncuttable) outcome

variable (scanner : Scanner)

end Scanner

end Fragments.Yaml
