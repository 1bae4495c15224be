import Fragments.Proofs.Yaml.Walk
import Fragments.Yaml.Writer

namespace Fragments.Yaml.Pen

/-- The pen behind a text. -/
def behind (out : List Char) (spaced fresh : Bool) : Pen :=
  ⟨out, columnOf out, spaced, fresh⟩

variable {out : List Char} {spaced fresh : Bool}

@[simp] theorem behind_out : (behind out spaced fresh).out = out := rfl

@[simp] theorem behind_column :
    (behind out spaced fresh).column = columnOf out := rfl

@[simp] theorem behind_spaced : (behind out spaced fresh).spaced = spaced := rfl

@[simp] theorem behind_fresh : (behind out spaced fresh).fresh = fresh := rfl

@[simp] theorem behind_with (other later : Bool) :
    { behind out spaced fresh with spaced := other, fresh := later } =
      behind out other later := rfl

theorem write_behind {chars : List Char}
    (hbreaks : ∀ c ∈ chars, isBreak c = false) :
    (behind out spaced fresh).write chars =
      behind (chars.reverse ++ out) spaced fresh := by
  unfold behind write
  rw [columnOf_append (fun c hc => hbreaks c (List.mem_reverse.mp hc)),
    List.length_reverse]

theorem newline_behind {c : Char} (hbreak : isBreak c = true) :
    (behind out spaced fresh).newline c = behind (c :: out) true true := by
  rw [newline, behind_out, behind, columnOf_cons_of_break hbreak]

theorem write_spaces (count : Nat) :
    (behind out spaced fresh).write (List.replicate count ' ') =
      behind (List.replicate count ' ' ++ out) spaced fresh := by
  rw [write_behind (fun c hc => by rw [List.eq_of_mem_replicate hc]; rfl),
    List.reverse_replicate]

def line (indent : Nat) (out : List Char) : List Char :=
  List.replicate indent ' ' ++ '\n' :: out

@[simp] theorem columnOf_line (indent : Nat) :
    columnOf (line indent out) = indent := by
  simp [line]

theorem indentTo_behind {indent : Nat}
    (hplaced : fresh = true → indent < columnOf out) :
    (behind out spaced fresh).indentTo indent =
      behind (line indent out) true true := by
  have hplaced : (if !(behind out spaced fresh).fresh ||
        indent < (behind out spaced fresh).column ||
        ((behind out spaced fresh).column == indent &&
          !(behind out spaced fresh).spaced) then
            (behind out spaced fresh).newline '\n'
              else behind out spaced fresh) =
              behind ('\n' :: out) true true := by
    rw [if_pos, newline_behind rfl]
    cases fresh with
    | false => rfl
    | true => simp [hplaced rfl]
  unfold indentTo
  rw [hplaced]
  rcases Nat.eq_zero_or_pos indent with rfl | hindent
  · rw [if_neg (by simp)]
    rfl
  · rw [if_pos (by simpa using hindent), behind_column, columnOf_newline,
      Nat.sub_zero, write_spaces]
    rfl

theorem indentTo_line (indent : Nat) :
    (behind out spaced false).indentTo indent =
      behind (line indent out) true true :=
  indentTo_behind nofun

theorem indentTo_fresh {indent : Nat} (hindent : columnOf out < indent) :
    (behind out spaced true).indentTo indent =
      behind (List.replicate (indent - columnOf out) ' ' ++ out) true true := by
  have hplaced : (if !(behind out spaced true).fresh ||
        indent < (behind out spaced true).column ||
        ((behind out spaced true).column == indent &&
          !(behind out spaced true).spaced) then
            (behind out spaced true).newline '\n' else behind out spaced true) =
              behind out spaced true :=
    if_neg (by simp [Nat.lt_asymm hindent, Nat.ne_of_lt hindent])
  unfold indentTo
  rw [hplaced]
  simp only [behind_column, if_pos hindent, write_spaces]
  rfl

@[simp] theorem indentTo_self :
    (behind out true true).indentTo (columnOf out) = behind out true true := by
  simp [indentTo]

theorem mark_behind {text : List Char} (htext : ∀ c ∈ text, isBreak c = false)
    (apart other later : Bool) :
    (behind out spaced fresh).mark text apart other later =
      behind (text.reverse ++ if spaced || !apart then out
        else ' ' :: out) other
        (fresh && later) := by
  unfold mark
  split
  · rw [write_behind htext]
    simp_all
    rfl
  · rw [write_behind (by simpa using ⟨rfl, htext⟩)]
    simp_all
    rfl

theorem breakTo_line (indent : Nat) :
    (behind out spaced false).breakTo indent =
      behind (line indent out) false false := by
  rw [breakTo, indentTo_line]
  rfl

end Fragments.Yaml.Pen
