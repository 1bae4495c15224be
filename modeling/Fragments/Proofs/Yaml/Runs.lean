import Fragments.Yaml.Writer
import Mathlib.Data.List.SplitBy

namespace Fragments.Yaml

inductive RunKind
  | blank
  | lineBreak
  | word
  deriving DecidableEq

def runKind (c : Char) : RunKind :=
  if c == ' ' then .blank else if Style.isBreak c then .lineBreak else .word

theorem runKind_eq_blank_iff {c : Char} : runKind c = .blank ↔ c = ' ' := by
  unfold runKind
  split
  · simp_all
  · split <;> simp_all

theorem runKind_eq_lineBreak_iff {c : Char} :
    runKind c = .lineBreak ↔ Style.isBreak c = true := by
  unfold runKind
  split
  · next hblank =>
      rw [beq_iff_eq] at hblank
      subst hblank
      decide
  · split <;> simp_all

theorem runKind_eq_word_iff {c : Char} :
    runKind c = .word ↔ c ≠ ' ' ∧ Style.isBreak c = false := by
  unfold runKind
  split
  · simp_all
  · split <;> simp_all

/-- Runs of one kind each, that of a run never that of the run before. -/
inductive Alternates : Option RunKind → List (List Char) → Prop
  | nil (before : Option RunKind) : Alternates before []
  | cons {before : Option RunKind} {kind : RunKind} {run : List Char}
      {rest : List (List Char)} (hturn : before ≠ some kind)
      (hnonempty : run ≠ []) (hkind : ∀ c ∈ run, runKind c = kind)
      (hrest : Alternates (some kind) rest) : Alternates before (run :: rest)

theorem flatten_runs (chars : List Char) : (runs chars).flatten = chars :=
  List.flatten_splitBy _ chars

def sameKind (a b : Char) : Bool := decide (runKind a = runKind b)

theorem runs_eq (chars : List Char) : runs chars = chars.splitBy sameKind := by
  have hsame :
      (fun a b : Char =>
        (if a == ' ' then 0 else if Style.isBreak a then 1 else 2) ==
      (if b == ' ' then 0 else if Style.isBreak b then 1 else 2)) =
        sameKind := by
    funext a b
    unfold sameKind runKind
    split <;> split <;> (try split) <;> (try split) <;> rfl
  rw [← hsame]
  rfl

theorem runKind_of_isChain {first : Char} {run : List Char}
    (hchain : (first :: run).IsChain fun a b => sameKind a b = true) :
    ∀ c ∈ first :: run, runKind c = runKind first := by
  induction run generalizing first with
  | nil =>
      rintro c hc
      rw [List.mem_singleton.mp hc]
  | cons second rest ih =>
      rw [List.isChain_cons_cons] at hchain
      have hsecond : runKind first = runKind second :=
        of_decide_eq_true hchain.1
      rintro c hc
      rcases List.mem_cons.mp hc with rfl | hc
      · rfl
      · rw [ih hchain.2 c hc, hsecond]

theorem alternates_of_isChain {all : List (List Char)} {before : Option RunKind}
    (hnil : [] ∉ all)
    (hchain : ∀ run ∈ all, run.IsChain fun a b => sameKind a b = true)
    (hturns : all.IsChain fun a b =>
      ∃ ha hb, sameKind (a.getLast ha) (b.head hb) = false)
        (hbefore : ∀ run ∈ all.head?, ∀ c ∈ run.head?,
          before ≠ some (runKind c)) :
    Alternates before all := by
  induction all generalizing before with
  | nil => exact .nil before
  | cons run rest ih =>
      cases run with
      | nil => exact absurd List.mem_cons_self hnil
      | cons first more =>
          have hkind := runKind_of_isChain (hchain _ List.mem_cons_self)
          refine .cons (hbefore _ rfl _ rfl) (List.cons_ne_nil _ _) hkind
            (ih (fun hmem => hnil (List.mem_cons_of_mem _ hmem))
              (fun run hrun => hchain run (List.mem_cons_of_mem _ hrun))
                hturns.of_cons ?_)
          cases rest with
          | nil => simp
          | cons next others =>
              obtain ⟨⟨ha, hb, hturn⟩, -⟩ := List.isChain_cons_cons.mp hturns
              have hlast := hkind _ (List.getLast_mem ha)
              rintro _ ⟨⟩ c hc
              have hhead : next.head hb = c := by
                rw [List.head?_eq_some_head hb] at hc
                exact Option.some.inj hc
              rw [← hlast, ← hhead]
              simpa [sameKind] using hturn

theorem alternates_runs (chars : List Char) : Alternates none (runs chars) := by
  rw [runs_eq]
  exact alternates_of_isChain (List.nil_notMem_splitBy _ _)
    (fun run hrun => List.isChain_of_mem_splitBy hrun)
    (List.isChain_getLast_head_splitBy _ _) (by simp)

theorem mayBreak_word {fold : Bool} {word : List Char} {pen : Pen}
    (hword : ∀ c ∈ word, runKind c = .word) :
    mayBreak fold word pen = false := by
  have hother : (word == [' ']) = false := by
    rw [beq_eq_false_iff_ne]
    rintro rfl
    exact absurd (hword ' ' (by simp)) (by decide)
  simp [mayBreak, hother]

end Fragments.Yaml
