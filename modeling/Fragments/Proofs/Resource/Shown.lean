import Fragments.Proofs.Resource.Dump

namespace Fragments

open Resource

namespace Value

mutual

/-- Whether the dump of a value shows a mapping with the label. -/
def Shows (label : Nat) : Value → Prop
  | scalar _ => False
  | list _ items => ShowsInItems label items
  | mapping own entries => own = some label ∨ ShowsInEntries label entries
  | set _ _ => False
  | pair first second => Shows label first ∨ Shows label second
  | back _ => False

def ShowsInItems (label : Nat) : List Value → Prop
  | [] => False
  | item :: rest => Shows label item ∨ ShowsInItems label rest

def ShowsInEntries (label : Nat) : List (Scalar × Value) → Prop
  | [] => False
  | (key, value) :: rest =>
      (Shows label value ∧ ∀ later ∈ rest, dumpKey later.1 ≠ dumpKey key) ∨
        ShowsInEntries label rest

end

end Value

namespace Entries

variable [DecidableEq κ]

private theorem get?_reverse_cons (own : κ) (value : ν) (rest : List (κ × ν))
    (key : κ) :
    get? ((own, value) :: rest).reverse key =
      (get? rest.reverse key).or (if own = key then some value else none) := by
  rw [List.reverse_cons, get?_append]
  congr 1
  split
  · next heq => rw [heq, get?_cons_self]
  · next hne => rw [get?_cons_of_ne hne]; rfl

private theorem get?_reverse_cons_congr {own : κ} {value other : ν}
    {rest more : List (κ × ν)} (hkeys : rest.map Prod.fst = more.map Prod.fst) :
    (∀ key, get? ((own, value) :: rest).reverse key =
      get? ((own, other) :: more).reverse key) ↔
      (∀ key, get? rest.reverse key = get? more.reverse key) ∧
        (own ∉ rest.map Prod.fst → value = other) := by
  have hnone : ∀ key, key ∉ rest.map Prod.fst →
      get? rest.reverse key = none ∧ get? more.reverse key = none := by
    intro key hnot
    rw [get?_eq_none_iff, get?_eq_none_iff]
    simp only [List.map_reverse, List.mem_reverse, ← hkeys]
    exact ⟨hnot, hnot⟩
  constructor
  · intro hall
    refine ⟨fun key => ?_, fun hnot => ?_⟩
    · by_cases hmem : key ∈ rest.map Prod.fst
      · have hkey := hall key
        rw [get?_reverse_cons, get?_reverse_cons] at hkey
        have hsome : ∀ pairs : List (κ × ν), key ∈ pairs.map Prod.fst →
            (get? pairs.reverse key).isSome := by
          intro pairs hmem
          rw [Option.isSome_iff_ne_none, ne_eq, get?_eq_none_iff]
          simpa using hmem
        obtain ⟨found, hfound⟩ := Option.isSome_iff_exists.mp (hsome rest hmem)
        obtain ⟨also, halso⟩ :=
          Option.isSome_iff_exists.mp (hsome more (hkeys ▸ hmem))
        rwa [hfound, halso, Option.some_or, Option.some_or, ← hfound, ← halso]
          at hkey
      · rw [(hnone key hmem).1, (hnone key hmem).2]
    · have hkey := hall own
      rw [get?_reverse_cons, get?_reverse_cons, (hnone own hnot).1,
        (hnone own hnot).2] at hkey
      simpa using hkey
  · rintro ⟨hrest, hvalue⟩ key
    rw [get?_reverse_cons, get?_reverse_cons, hrest]
    by_cases hmem : key ∈ rest.map Prod.fst
    · have hsome : (get? more.reverse key).isSome := by
        rw [Option.isSome_iff_ne_none, ne_eq, get?_eq_none_iff,
          List.map_reverse, List.mem_reverse, ← hkeys]
        exact not_not_intro hmem
      obtain ⟨found, hfound⟩ := Option.isSome_iff_exists.mp hsome
      rw [hfound, Option.some_or, Option.some_or]
    · split
      · next heq => rw [hvalue (heq ▸ hmem)]
      · rfl

end Entries

namespace Resource

/-- What a mapping must be like for a text to be new in it under a key. -/
structure Takes (key : String)
    (shape : List (Scalar × Option Scalar)) : Prop where
  texts : HasTextKeys shape
  distinct : (shape.map Prod.fst).Nodup
  free : ∀ held, Entries.get? shape (.text key) = some held → held = some .null

theorem Takes.hasTextKeys {key : String} {entries : List (Scalar × Value)}
    (htakes : Takes key (Value.outline entries)) : HasTextKeys entries := by
  intro entry hmem
  exact htakes.texts (entry.1, entry.2.scalar?) (List.mem_map_of_mem hmem)

theorem Takes.nodup {key : String} {entries : List (Scalar × Value)}
    (htakes : Takes key (Value.outline entries)) :
    (entries.map Prod.fst).Nodup := by
  rw [← Value.map_fst_outline]
  exact htakes.distinct

theorem Takes.field?_eq_null {key : String} {entries : List (Scalar × Value)}
    (htakes : Takes key (Value.outline entries)) {held : Value}
    (hfield : Value.field? entries key = some held) : held = .null := by
  have hheld := htakes.free held.scalar?
    (by rw [Value.field?_outline, hfield, Option.map_some])
  exact Value.scalar?_eq_some hheld

theorem HasTextKeys.assign {key : String} {value : Value}
    {entries : List (Scalar × Value)} (htexts : HasTextKeys entries) :
    HasTextKeys (Value.assign key value entries) := by
  intro entry hmem
  rcases Entries.mem_map_fst_assign (List.mem_map_of_mem hmem) with hold | hnew
  · obtain ⟨old, hold, heq⟩ := List.mem_map.mp hold
    rw [← heq]
    exact htexts old hold
  · exact ⟨key, hnew⟩

theorem HasTextKeys.of_assign {key : String} {value : Value}
    {entries : List (Scalar × Value)}
    (htexts : HasTextKeys (Value.assign key value entries)) :
    HasTextKeys (Value.outline entries) := by
  intro entry hmem
  have hkey : entry.1 ∈ (Value.assign key value entries).map Prod.fst := by
    have hkey : entry.1 ∈ (Value.outline entries).map Prod.fst :=
      List.mem_map_of_mem hmem
    rw [Value.map_fst_outline] at hkey
    rw [Value.assign, Entries.map_fst_assign]
    split
    · exact hkey
    · exact List.mem_append_left _ hkey
  obtain ⟨other, hother, heq⟩ := List.mem_map.mp hkey
  rw [← heq]
  exact htexts other hother

theorem Takes.get?_dumpEntries {key : String} {levels : Nat}
    {entries : List (Scalar × Value)} {dumped : List (String × Json)}
    (htakes : Takes key (Value.outline entries))
    (hdump : dumpEntries levels entries = .ok dumped) (text : String) :
    Entries.get? (Json.uniqueEntries dumped) key ≠ some (.text text) := by
  rw [uniqueEntries_dumpEntries htakes.hasTextKeys htakes.nodup hdump]
  intro hget
  have hfound := Resource.get?_dumpEntries htakes.hasTextKeys hdump key
  cases hfield : Value.field? entries key with
  | none => rw [hget, hfield] at hfound; cases hfound
  | some held =>
      rw [hget, hfield, htakes.field?_eq_null hfield, Option.map_some,
        Option.map_some, Option.some.injEq, eq_comm] at hfound
      cases (dumpIn_scalar_eq_ok_iff.mp hfound).2

theorem Takes.get?_dumpEntries_assign {key text : String} {levels : Nat}
    {entries : List (Scalar × Value)} {dumped : List (String × Json)}
    (htakes : Takes key (Value.outline entries))
    (hdump : dumpEntries levels (Value.assign key (.text text) entries) =
      .ok dumped) :
    Entries.get? (Json.uniqueEntries dumped) key = some (.text text) := by
  have hnodup : ((Value.assign key (.text text) entries).map Prod.fst).Nodup :=
    Entries.nodup_assign (fun key => beq_self_eq_true key) htakes.nodup
  rw [uniqueEntries_dumpEntries htakes.hasTextKeys.assign hnodup hdump]
  have hfound := Resource.get?_dumpEntries htakes.hasTextKeys.assign hdump key
  rw [Value.field?_assign_self, Option.map_some] at hfound
  obtain ⟨json, hjson, hok⟩ := Option.map_eq_some_iff.mp hfound
  cases (dumpIn_scalar_eq_ok_iff.mp hok.symm).2
  exact hjson

variable {outlines : Nat → List (Scalar × Option Scalar)} {label : Nat}
  {key text : String}

mutual

/-- A text that is new in the mappings with a label is seen where a dump shows
one of them. -/
theorem dumpIn_changeLabelled (htakes : Takes key (outlines label)) :
    ∀ {value : Value} {levels : Nat} {json : Json}, value.Outlined outlines →
      dumpIn levels
        (value.changeLabelled label (Value.assign key (.text text))) =
          .ok json →
      ∃ before, dumpIn levels value = .ok before ∧
        (before = json ↔ ¬value.Shows label)
  | .scalar value, levels, json, _, hdump =>
      ⟨json, hdump, by simp [Value.Shows]⟩
  | .list own items, levels, json, houtlined, hdump => by
      rw [Value.changeLabelled] at hdump
      obtain ⟨hpos, dumped, hitems, rfl⟩ := dumpIn_list_eq_ok_iff.mp hdump
      obtain ⟨before, hbefore, hsame⟩ :=
        dumpItems_changeLabelled htakes houtlined hitems
      exact ⟨_, dumpIn_list_eq_ok_iff.mpr ⟨hpos, before, hbefore, rfl⟩,
        by rw [Json.array.injEq, hsame, Value.Shows]⟩
  | .mapping own entries, levels, json, houtlined, hdump => by
      rw [Value.changeLabelled] at hdump
      obtain ⟨hpos, dumped, hentries, rfl⟩ := dumpIn_mapping_eq_ok_iff.mp hdump
      rw [Value.Outlined] at houtlined
      by_cases hown : own = some label
      · rw [if_pos hown] at hentries
        have hinner : Takes key
            (Value.outline
              (Value.changeLabelledEntries label (Value.assign key (.text text))
                entries)) := by
          rw [Value.outline_changeLabelledEntries, houtlined.1 label hown]
          exact htakes
        obtain ⟨middle, hmiddle⟩ := exists_dumpEntries_of_assign hentries
          fun held hfield hinside => ⟨.null, by
            rw [hinner.field?_eq_null hfield]
            exact dumpIn_scalar_eq_ok_iff.mpr ⟨hinside, rfl⟩⟩
        obtain ⟨before, hbefore, -, -⟩ :=
          dumpEntries_changeLabelled htakes houtlined.2 hmiddle
        refine ⟨_, dumpIn_mapping_eq_ok_iff.mpr ⟨hpos, before, hbefore, rfl⟩,
          ?_⟩
        have htakesEntries : Takes key (Value.outline entries) := by
          rw [houtlined.1 label hown]
          exact htakes
        simp only [Value.Shows, hown, true_or, not_true_eq_false, iff_false,
          Json.object.injEq]
        intro hsame
        exact htakesEntries.get?_dumpEntries hbefore text
          (hsame ▸ hinner.get?_dumpEntries_assign hentries)
      · rw [if_neg hown] at hentries
        obtain ⟨before, hbefore, hkeys, hsame⟩ :=
          dumpEntries_changeLabelled htakes houtlined.2 hentries
        refine ⟨_, dumpIn_mapping_eq_ok_iff.mpr ⟨hpos, before, hbefore, rfl⟩,
          ?_⟩
        rw [Json.object.injEq, Json.uniqueEntries, Json.uniqueEntries,
          Entries.ofPairs_eq_iff hkeys, hsame, Value.Shows]
        simp only [hown, false_or]
  | .set own elements, levels, json, _, hdump =>
      ⟨json, hdump, by simp [Value.Shows]⟩
  | .pair first second, levels, json, houtlined, hdump => by
      rw [Value.changeLabelled] at hdump
      obtain ⟨hpos, a, b, hfirst, hsecond, rfl⟩ :=
        dumpIn_pair_eq_ok_iff.mp hdump
      obtain ⟨a', hfirst', hsameFirst⟩ :=
        dumpIn_changeLabelled htakes houtlined.1 hfirst
      obtain ⟨b', hsecond', hsameSecond⟩ :=
        dumpIn_changeLabelled htakes houtlined.2 hsecond
      refine ⟨_, dumpIn_pair_eq_ok_iff.mpr
        ⟨hpos, a', b', hfirst', hsecond', rfl⟩, ?_⟩
      rw [Value.Shows, not_or, ← hsameFirst, ← hsameSecond]
      simp
  | .back target, levels, json, _, hdump => by cases hdump

theorem dumpItems_changeLabelled (htakes : Takes key (outlines label)) :
    ∀ {items : List Value} {levels : Nat} {dumped : List Json},
      Value.OutlinedItems outlines items →
      dumpItems levels
        (Value.changeLabelledItems label
          (Value.assign key (.text text)) items) =
        .ok dumped →
      ∃ before, dumpItems levels items = .ok before ∧
        (before = dumped ↔ ¬Value.ShowsInItems label items)
  | [], levels, dumped, _, hdump =>
      ⟨dumped, hdump, by simp [Value.ShowsInItems]⟩
  | item :: rest, levels, dumped, houtlined, hdump => by
      rw [Value.changeLabelledItems] at hdump
      obtain ⟨first, more, hfirst, hmore, rfl⟩ :=
        dumpItems_cons_eq_ok_iff.mp hdump
      obtain ⟨first', hfirst', hsame⟩ :=
        dumpIn_changeLabelled htakes houtlined.1 hfirst
      obtain ⟨more', hmore', hsameMore⟩ :=
        dumpItems_changeLabelled htakes houtlined.2 hmore
      refine ⟨_, dumpItems_cons_eq_ok_iff.mpr
        ⟨first', more', hfirst', hmore', rfl⟩, ?_⟩
      rw [List.cons.injEq, hsame, hsameMore, Value.ShowsInItems, not_or]

theorem dumpEntries_changeLabelled (htakes : Takes key (outlines label)) :
    ∀ {entries : List (Scalar × Value)} {levels : Nat}
    {dumped : List (String × Json)},
      Value.OutlinedEntries outlines entries →
      dumpEntries levels
          (Value.changeLabelledEntries label
            (Value.assign key (.text text)) entries) =
        .ok dumped →
      ∃ before, dumpEntries levels entries = .ok before ∧
        before.map Prod.fst = dumped.map Prod.fst ∧
        ((∀ key, Entries.get? before.reverse key =
          Entries.get? dumped.reverse key) ↔
          ¬Value.ShowsInEntries label entries)
  | [], levels, dumped, _, hdump =>
      ⟨dumped, hdump, rfl, by simp [Value.ShowsInEntries]⟩
  | (own, value) :: rest, levels, dumped, houtlined, hdump => by
      rw [Value.changeLabelledEntries] at hdump
      obtain ⟨shown, json, more, hkey, hjson, hmore, rfl⟩ :=
        dumpEntries_cons_eq_ok_iff.mp hdump
      obtain ⟨json', hjson', hsame⟩ :=
        dumpIn_changeLabelled htakes houtlined.1 hjson
      obtain ⟨more', hmore', hkeys, hsameMore⟩ :=
        dumpEntries_changeLabelled htakes houtlined.2 hmore
      refine ⟨_, dumpEntries_cons_eq_ok_iff.mpr
        ⟨shown, json', more', hkey, hjson', hmore', rfl⟩, by
          rw [List.map_cons, List.map_cons, hkeys], ?_⟩
      have hcovered : shown ∉ more'.map Prod.fst ↔
          ∀ later ∈ rest, dumpKey later.1 ≠ dumpKey own := by
        rw [mem_map_fst_dumpEntries hmore', hkey]
        simp only [not_exists, not_and, ne_eq]
      rw [Entries.get?_reverse_cons_congr hkeys, hsameMore, hsame, hcovered,
        Value.ShowsInEntries, not_or, not_and', and_comm]

end

end Resource

end Fragments
