import Fragments.Proofs.Json.Values
import Fragments.Proofs.Yaml.Trees

namespace Fragments.Yaml

/-- Whether a blank stands behind a character that is escaped, neither at the
very start nor at the end. -/
def hasStray (chars : List Char) : Bool :=
  Style.hasNeighbours (fun a b => needsEscape a && b == ' ') chars.tail.dropLast

/-- Whether a text is read as it is, given the column of the lines it is broken
to. -/
def isLegible (indent : Nat) (text : String) : Bool :=
  match Style.ofText false text with
  | .plain => true
  | .single => !text.toList.any fun c => c.toNat == 0x85
  | .double => !(80 ≤ indent && hasStray text.toList)

mutual

def legible (column : Nat) (compact : Bool) : Json → Bool
  | .text value => isLegible (column + 2) value
  | .array items => legibleItems (if compact then column + 2 else column) items
  | .object entries => legibleEntries (column + 2) entries
  | _ => true

def legibleItems (column : Nat) : List Json → Bool
  | [] => true
  | item :: rest => legible column true item && legibleItems column rest

def legibleEntries (column : Nat) : List (String × Json) → Bool
  | [] => true
  | (key, value) :: rest =>
      (isSimpleKey key || isLegible (column + 2) key) &&
        legible column (!isSimpleKey key) value && legibleEntries column rest

end

theorem heardBreak_eq_iff {c : Char} : heardBreak c = c ↔ c.toNat ≠ 0x85 := by
  unfold heardBreak
  split
  · next hnext =>
      refine iff_of_false ?_ (not_not_intro hnext)
      rintro rfl
      cases hnext
  · next hother => exact iff_of_true rfl hother

theorem heardBreak_ne (c : Char) : (heardBreak c).toNat ≠ 0x85 := by
  unfold heardBreak
  split
  · decide
  · next hother => exact hother

theorem heardRun_ne (run : List Char) : ∀ c ∈ heardRun run, c.toNat ≠ 0x85 := by
  have hmapped (chars : List Char) :
      ∀ c ∈ chars.map heardBreak, c.toNat ≠ 0x85 := by
    simpa using fun c _ => heardBreak_ne c
  cases run with
  | nil => simp [heardRun]
  | cons c more =>
      rw [heardRun]
      split
      · split
        · decide
        · exact hmapped more
      · exact hmapped (c :: more)

theorem heardRun_of_ne {run : List Char} (hrun : ∀ c ∈ run, c.toNat ≠ 0x85) :
    heardRun run = run := by
  cases run with
  | nil => rfl
  | cons c more =>
      rw [heardRun, if_neg (hrun c List.mem_cons_self)]
      exact (List.map_congr_left fun d hd =>
        heardBreak_eq_iff.mpr (hrun d hd)).trans (List.map_id _)

theorem heardSingle_eq_iff {chars : List Char} :
    heardSingle chars = chars ↔ ∀ c ∈ chars, c.toNat ≠ 0x85 := by
  constructor
  · intro hsame c hc
    rw [← hsame] at hc
    obtain ⟨run, -, hc⟩ := List.mem_flatMap.mp hc
    exact heardRun_ne run c hc
  · intro hchars
    have hruns : ∀ run ∈ runs chars, heardRun run = run := fun run hrun =>
      heardRun_of_ne fun c hc => hchars c (by
        rw [← flatten_runs chars]
        exact List.mem_flatten.mpr ⟨run, hrun, hc⟩)
    rw [heardSingle, List.flatMap_def, List.map_congr_left hruns, List.map_id',
      flatten_runs]

theorem heardDoubleFrom_eq_iff (chars : List Char) :
    heardDoubleFrom true false chars = chars ↔
      Style.hasNeighbours (fun a b => needsEscape a && b == ' ')
        chars.dropLast = false := by
  induction chars with
  | nil => exact iff_of_true rfl rfl
  | cons c rest ih =>
      cases rest with
      | nil => exact iff_of_true (by simp [heardDoubleFrom]) rfl
      | cons d more =>
          cases more with
          | nil => exact iff_of_true (by simp [heardDoubleFrom]) rfl
          | cons e others =>
              rw [heardDoubleFrom, List.dropLast_cons_cons,
                List.dropLast_cons_cons, Style.hasNeighbours, ←
                  List.dropLast_cons_cons, Bool.or_eq_false_iff, ← ih]
              split
              · next hstray =>
                  simp only [Bool.and_eq_true, Bool.not_false, List.head?_cons,
                    beq_iff_eq, Option.some.injEq] at hstray
                  obtain ⟨⟨⟨-, hescape⟩, rfl⟩, -⟩ := hstray
                  refine iff_of_false (fun hsame => ?_) (by simp [hescape])
                  cases (List.cons.inj (List.cons.inj hsame).2).1
              · next hplain =>
                  have hplain : (needsEscape c && d == ' ') = false := by
                    simpa using hplain
                  simp [hplain]

theorem heardDouble_eq_iff {indent : Nat} {chars : List Char} :
    heardDouble true indent chars = chars ↔
      (80 ≤ indent → hasStray chars = false) := by
  rw [heardDouble, Bool.true_and]
  by_cases hdeep : 80 ≤ indent
  · rw [decide_eq_true hdeep]
    cases chars with
    | nil => exact iff_of_true rfl fun _ => rfl
    | cons c rest =>
        rw [heardDoubleFrom, if_neg (by simp), List.cons.injEq,
          heardDoubleFrom_eq_iff]
        simp [hdeep, hasStray]
  · rw [decide_eq_false hdeep]
    exact iff_of_true (heardDoubleFrom_false true chars) fun h => absurd h hdeep

theorem heardText_eq_iff {indent : Nat} {text : String} :
    heardText indent text = text ↔ isLegible indent text = true := by
  have hchars (chars : List Char) : String.ofList chars = text ↔
      chars = text.toList := by
    rw [← String.toList_inj, String.toList_ofList]
  unfold heardText isLegible
  cases Style.ofText false text with
  | plain => simp
  | single => simp [hchars, heardSingle_eq_iff]
  | double => simp [hchars, heardDouble_eq_iff, imp_iff_not_or]

mutual

theorem heard_eq_iff : ∀ {value : Json} {column : Nat} {compact : Bool},
    heard column compact value = value ↔ legible column compact value = true
  | .null, _, _ => iff_of_true rfl rfl
  | .bool _, _, _ => iff_of_true rfl rfl
  | .int _, _, _ => iff_of_true rfl rfl
  | .float _, _, _ => iff_of_true rfl rfl
  | .text value, column,
      _ => by rw [heard, legible, Json.text.injEq, heardText_eq_iff]
  | .array items, _,
      _ => by rw [heard, legible, Json.array.injEq, heardItems_eq_iff]
  | .object entries, _,
      _ => by rw [heard, legible, Json.object.injEq, heardEntries_eq_iff]

theorem heardItems_eq_iff : ∀ {items : List Json} {column : Nat},
    heardItems column items = items ↔ legibleItems column items = true
  | [], _ => iff_of_true rfl rfl
  | item :: rest, column => by
      rw [heardItems, legibleItems, List.cons.injEq, heard_eq_iff,
        heardItems_eq_iff, Bool.and_eq_true]

theorem heardEntries_eq_iff : ∀ {entries : List (String × Json)} {column : Nat},
    heardEntries column entries = entries ↔ legibleEntries column entries = true
  | [], _ => iff_of_true rfl rfl
  | (key, value) :: rest, column => by
      have hkey : heardKey column key = key ↔
          (isSimpleKey key || isLegible (column + 2) key) = true := by
        rw [heardKey, Bool.or_eq_true]
        split
        · next hsimple => exact iff_of_true rfl (.inl hsimple)
        · next hother => rw [heardText_eq_iff, or_iff_right hother]
      rw [heardEntries, legibleEntries, List.cons.injEq, Prod.mk.injEq, hkey,
        heard_eq_iff, heardEntries_eq_iff, Bool.and_eq_true, Bool.and_eq_true]

end

theorem length_heardEntries (column : Nat) (entries : List (String × Json)) :
    (heardEntries column entries).length = entries.length := by
  induction entries with
  | nil => rfl
  | cons entry rest ih =>
      rw [heardEntries, List.length_cons, List.length_cons, ih]

theorem mergedFields_of_unique_eq {column : Nat}
    {entries : List (String × Json)}
    (hmerged : Json.uniqueEntries
      (Json.mergedFields (heardEntries column entries)) = entries) :
    Json.mergedFields (heardEntries column entries) = entries := by
  have hlength :
      (Json.uniqueEntries
        (Json.mergedFields (heardEntries column entries))).length =
      (Json.mergedFields (heardEntries column entries)).length := by
    rw [hmerged, Json.length_mergedFields, length_heardEntries]
  exact (Entries.ofPairs_of_length_eq hlength).symm.trans hmerged

mutual

theorem heard_of_merged_eq : ∀ {value : Json} {column : Nat} {compact : Bool},
    (heard column compact value).merged = value →
      heard column compact value = value
  | .null, _, _, _ => rfl
  | .bool _, _, _, _ => rfl
  | .int _, _, _, _ => rfl
  | .float _, _, _, _ => rfl
  | .text _, _, _, h => h
  | .array _, _, _, h =>
      congrArg Json.array (heardItems_of_merged_eq (Json.array.inj h))
  | .object _, _, _, h =>
      congrArg Json.object
        (heardEntries_of_merged_eq
          (mergedFields_of_unique_eq (Json.object.inj h)))

theorem heardItems_of_merged_eq : ∀ {items : List Json} {column : Nat},
    Json.mergedItems (heardItems column items) = items →
      heardItems column items = items
  | [], _, _ => rfl
  | _ :: _, _, h => by
      obtain ⟨hitem, hrest⟩ := List.cons.inj h
      exact congrArg₂ List.cons (heard_of_merged_eq hitem)
        (heardItems_of_merged_eq hrest)

theorem heardEntries_of_merged_eq :
    ∀ {entries : List (String × Json)} {column : Nat},
      Json.mergedFields (heardEntries column entries) = entries →
      heardEntries column entries = entries
  | [], _, _ => rfl
  | (_, _) :: _, _, h => by
      obtain ⟨hentry, hrest⟩ := List.cons.inj h
      obtain ⟨hkey, hvalue⟩ := Prod.mk.inj hentry
      exact congrArg₂ List.cons (Prod.ext hkey (heard_of_merged_eq hvalue))
        (heardEntries_of_merged_eq hrest)

end

/-- Data whose keys differ is what is left of what is heard of it exactly when
it is legible. -/
theorem merged_heardEntries_eq_iff {column : Nat}
    {entries : List (String × Json)}
    (hkeys : (Json.object entries).DistinctKeys) :
    (Json.object (heardEntries column entries)).merged = .object entries ↔
      legibleEntries column entries = true := by
  rw [← heardEntries_eq_iff]
  constructor
  · intro hmerged
    exact heardEntries_of_merged_eq
      (mergedFields_of_unique_eq (Json.object.inj hmerged))
  · intro hsame
    rw [hsame, Json.merged_of_distinctKeys hkeys]

end Fragments.Yaml
