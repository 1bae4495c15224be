import Fragments.Proofs.Data.Outcome
import Fragments.Proofs.Json.Atoms

namespace Fragments.Json

section

variable {fuel levels : Nat} {chars rest after more : List Char}

theorem readValue_starts {found : Json × List Char}
    (h : readValue fuel levels chars = .ok found) :
    ∃ c tail, chars = c :: tail ∧ isSpace c = false ∧ c ≠ ']' ∧
      c ≠ Char.ofNat 0xFEFF := by
  cases fuel with
  | zero => cases h
  | succ fuel =>
      cases chars with
      | nil => cases h
      | cons c tail =>
          refine ⟨c, tail, rfl, Bool.eq_false_iff.mpr fun hspace => ?_, ?_, ?_⟩
          · simp only [isSpace, Bool.or_eq_true, beq_iff_eq] at hspace
            rcases hspace with ((rfl | rfl) | rfl) | rfl <;> cases h
          · rintro rfl
            cases h
          · rintro rfl
            cases h

theorem skipSpace_of_readValue {found : Json × List Char}
    (h : readValue fuel levels chars = .ok found) :
    skipSpace chars = chars := by
  obtain ⟨c, tail, rfl, hspace, -⟩ := readValue_starts h
  exact List.dropWhile_cons_of_neg (Bool.eq_false_iff.mp hspace)

theorem readValue_readAtom {found : Json × List Char}
    (h : readAtom chars = .ok found) :
    readValue (fuel + 1) levels chars = .ok found := by
  rw [readValue.eq_def]
  dsimp only
  split
  · cases h
  · cases h
  · cases h
  · exact h

theorem readItems_last {item : Json}
    (hitem : readValue fuel levels chars = .ok (item, after))
    (hclosing : skipSpace after = ']' :: rest) :
    readItems (fuel + 1) levels chars = .ok ([item], rest) := by
  simp only [readItems, hitem, hclosing, bind, Except.bind]

theorem readItems_more {item : Json} {items : List Json}
    (hitem : readValue fuel levels chars = .ok (item, after))
    (hcomma : skipSpace after = ',' :: more)
    (hitems : readItems fuel levels (skipSpace more) = .ok (items, rest)) :
    readItems (fuel + 1) levels chars = .ok (item :: items, rest) := by
  simp only [readItems, hitem, hcomma, hitems, bind, Except.bind]

variable {afterKey beforeValue : List Char} {key : String} {value : Json}

theorem skipSpace_of_quote (hquote : chars.head? = some '"') :
    skipSpace chars = chars := by
  cases chars with
  | nil => rfl
  | cons c tail =>
      cases hquote
      rfl

theorem readFields_last (hquote : chars.head? = some '"')
    (hkey : readString chars = .ok (key, afterKey))
    (hcolon : skipSpace afterKey = ':' :: beforeValue)
    (hvalue : readValue fuel levels (skipSpace beforeValue) =
      .ok (value, after))
    (hclosing : skipSpace after = '\x7d' :: rest) :
    readFields (fuel + 1) levels chars = .ok ([(key, value)], rest) := by
  cases chars with
  | nil => cases hquote
  | cons c tail =>
      cases hquote
      simp only [readFields, hkey, hcolon, hvalue, hclosing, bind, Except.bind]

theorem readFields_more {entries : List (String × Json)}
    (hquote : chars.head? = some '"')
    (hkey : readString chars = .ok (key, afterKey))
    (hcolon : skipSpace afterKey = ':' :: beforeValue)
    (hvalue : readValue fuel levels (skipSpace beforeValue) =
      .ok (value, after)) (hcomma : skipSpace after = ',' :: more)
    (hentries : readFields fuel levels (skipSpace more) = .ok (entries, rest)) :
    readFields (fuel + 1) levels chars =
      .ok ((key, value) :: entries, rest) := by
  cases chars with
  | nil => cases hquote
  | cons c tail =>
      cases hquote
      simp only [readFields, hkey, hcolon, hvalue, hcomma, hentries, bind,
        Except.bind]

theorem readValue_string (hquote : chars.head? = some '"')
    (hcontent : readString chars = .ok (key, rest)) :
    readValue (fuel + 1) levels chars = .ok (.text key, rest) := by
  cases chars with
  | nil => cases hquote
  | cons c tail =>
      cases hquote
      simp only [readValue, hcontent, bind, Except.bind]

theorem readValue_array {items : List Json} (hlevels : levels ≠ 0)
    (hopening : ∀ tail, skipSpace chars ≠ ']' :: tail)
    (hitems : readItems fuel (levels - 1) (skipSpace chars) =
      .ok (items, rest)) :
    readValue (fuel + 1) levels ('[' :: chars) = .ok (.array items, rest) := by
  rw [readValue]
  refine below_eq_ok_iff.mpr ⟨hlevels, ?_⟩
  split
  · next h => exact absurd h (hopening _)
  · rw [hitems]
    rfl

theorem readValue_object {entries : List (String × Json)} (hlevels : levels ≠ 0)
    (hopening : ∀ tail, skipSpace chars ≠ '\x7d' :: tail)
    (hentries : readFields fuel (levels - 1) (skipSpace chars) =
      .ok (entries, rest)) :
    readValue (fuel + 1) levels ('\x7b' :: chars) =
      .ok (.object (uniqueEntries entries), rest) := by
  rw [readValue]
  refine below_eq_ok_iff.mpr ⟨hlevels, ?_⟩
  split
  · next h => exact absurd h (hopening _)
  · rw [hentries]
    rfl

end

theorem skipSpace_newline (depth : Nat) (chars : List Char) :
    skipSpace ((newline depth).toList ++ chars) = skipSpace chars := by
  have hblanks :
      ∀ count, skipSpace (List.replicate count ' ' ++ chars) =
        skipSpace chars := by
    intro count
    induction count with
    | zero => rfl
    | succ count ih => exact ih
  rw [newline, String.toList_ofList, List.cons_append]
  exact hblanks (2 * depth)

/-- From the end of an entry to the end of its container: the entries that are
left, each after a comma, and the closing bracket. -/
def afterEntry (closing : String) (depth : Nat) : List String → List Char
  | [] => (newline depth).toList ++ closing.toList
  | entry :: entries =>
      ',' :: ((newline (depth + 1)).toList ++
        (entry.toList ++ afterEntry closing depth entries))

theorem layOut_nil (opening closing : String) (depth : Nat) :
    layOut opening closing depth [] = opening ++ closing :=
  rfl

theorem toList_layOut_cons {opening : String} {bracket : Char}
    (hopening : opening.toList = [bracket]) (closing : String) (depth : Nat)
    (entry : String) (entries : List String) (rest : List Char) :
    (layOut opening closing depth (entry :: entries)).toList ++ rest =
      bracket :: ((newline (depth + 1)).toList ++
        (entry.toList ++ (afterEntry closing depth entries ++ rest))) := by
  have hjoined :
      (("," ++ newline (depth + 1)).intercalate (entry :: entries)).toList ++
      ((newline depth).toList ++ (closing.toList ++ rest)) =
        entry.toList ++ (afterEntry closing depth entries ++ rest) := by
    induction entries generalizing entry with
    | nil => rw [String.intercalate_singleton, afterEntry, List.append_assoc]
    | cons next entries ih =>
        rw [String.intercalate_cons_cons, afterEntry, List.cons_append,
          List.append_assoc, List.append_assoc, ← ih next]
        simp only [String.toList_append, List.append_assoc]
        rfl
  have hne : ¬(entry :: entries).isEmpty = true := Bool.false_ne_true
  rw [layOut, if_neg hne, ← hjoined]
  simp only [String.toList_append, List.append_assoc, hopening,
    List.cons_append, List.nil_append]

theorem length_layOut_cons {opening : String} {bracket : Char}
    (hopening : opening.toList = [bracket]) (closing : String) (depth : Nat)
    (entry : String) (entries : List String) :
    entry.toList.length + (afterEntry closing depth entries).length <
      (layOut opening closing depth (entry :: entries)).toList.length := by
  have htext := congrArg List.length
    (toList_layOut_cons hopening closing depth entry entries [])
  simp only [List.append_nil, List.length_cons, List.length_append] at htext
  omega

theorem head?_layOut {opening : String} {bracket : Char}
    (hopening : opening.toList = [bracket]) (closing : String) (depth : Nat)
    (entries : List String) :
    (layOut opening closing depth entries).toList.head? = some bracket := by
  cases entries with
  | nil =>
      rw [layOut_nil, String.toList_append, hopening]
      rfl
  | cons entry entries =>
      have htext := toList_layOut_cons hopening closing depth entry entries []
      rw [List.append_nil] at htext
      rw [htext]
      rfl

theorem endsValue_afterEntry (closing : String) (depth : Nat)
    (entries : List String) (rest : List Char) :
    EndsValue (afterEntry closing depth entries ++ rest) := by
  intro c hhead
  cases entries with
  | nil =>
      rw [afterEntry, newline, String.toList_ofList] at hhead
      cases hhead
      exact .inr rfl
  | cons entry entries =>
      rw [afterEntry] at hhead
      cases hhead
      exact .inl rfl

theorem length_afterEntry_nil (closing : String) (depth : Nat) :
    0 < (afterEntry closing depth []).length := by
  rw [afterEntry, newline, String.toList_ofList]
  exact Nat.zero_lt_succ _

theorem skipSpace_afterEntry_nil {closing : String} {bracket : Char}
    (hclosing : closing.toList = [bracket]) (hspace : isSpace bracket = false)
    (depth : Nat) (rest : List Char) :
    skipSpace (afterEntry closing depth [] ++ rest) = bracket :: rest := by
  rw [afterEntry, hclosing, List.append_assoc, skipSpace_newline]
  exact List.dropWhile_cons_of_neg (Bool.eq_false_iff.mp hspace)

theorem skipSpace_afterEntry_cons (closing : String) (depth : Nat)
    (entry : String) (entries : List String) (rest : List Char) :
    skipSpace (afterEntry closing depth (entry :: entries) ++ rest) =
      ',' :: ((newline (depth + 1)).toList ++
        (entry.toList ++ (afterEntry closing depth entries ++ rest))) := by
  simp only [afterEntry, List.cons_append, List.append_assoc]
  rfl

end Fragments.Json
