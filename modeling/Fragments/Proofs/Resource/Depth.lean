import Fragments.Proofs.Resource.FixedPoint

namespace Fragments

namespace Value

mutual

/-- The value without labels, every mention of a container being one of its
own. -/
def unlabelled : Value → Value
  | scalar value => scalar value
  | list _ items => list none (unlabelledItems items)
  | mapping _ entries => mapping none (unlabelledEntries entries)
  | set _ elements => set none elements
  | pair first second => pair (unlabelled first) (unlabelled second)
  | back label => back label

def unlabelledItems : List Value → List Value
  | [] => []
  | item :: rest => unlabelled item :: unlabelledItems rest

def unlabelledEntries : List (Scalar × Value) → List (Scalar × Value)
  | [] => []
  | (key, value) :: rest => (key, unlabelled value) :: unlabelledEntries rest

end

theorem unlabelledEntries_eq_map (entries : List (Scalar × Value)) :
    unlabelledEntries entries = entries.map fun entry =>
      (entry.1, entry.2.unlabelled) := by
  induction entries with
  | nil => rfl
  | cons entry rest ih => rw [unlabelledEntries, ih, List.map_cons]

theorem field?_unlabelledEntries (entries : List (Scalar × Value))
    (key : String) :
    field? (unlabelledEntries entries) key =
      (field? entries key).map unlabelled := by
  induction entries with
  | nil => rfl
  | cons entry rest ih =>
      obtain ⟨own, value⟩ := entry
      unfold field? at ih ⊢
      rw [unlabelledEntries]
      by_cases heq : own = .text key
      · subst heq
        rw [Entries.get?_cons_self, Entries.get?_cons_self, Option.map_some]
      · rw [Entries.get?_cons_of_ne heq, Entries.get?_cons_of_ne heq, ih]

end Value

namespace Json

mutual

/-- Whether no number in the tree is infinite or none at all. -/
def IsFinite : Json → Prop
  | float value => value.isFinite = true
  | array items => AllFinite items
  | object entries => FieldsFinite entries
  | _ => True

def AllFinite : List Json → Prop
  | [] => True
  | item :: rest => IsFinite item ∧ AllFinite rest

def FieldsFinite : List (String × Json) → Prop
  | [] => True
  | (_, value) :: rest => IsFinite value ∧ FieldsFinite rest

end

/-- Whether a tree is what JSON data can be: no object repeats a key, all
numbers are finite. -/
structure Sound (value : Json) : Prop where
  distinct : value.DistinctKeys
  finite : value.IsFinite

theorem fieldsFinite_iff {entries : List (String × Json)} :
    FieldsFinite entries ↔ ∀ entry ∈ entries, entry.2.IsFinite := by
  induction entries with
  | nil => simp [FieldsFinite]
  | cons entry rest ih => simp [FieldsFinite, ih]

theorem Sound.nodup {entries : List (String × Json)}
    (hsound : (object entries).Sound) :
    (entries.map Prod.fst).Nodup :=
  (distinctKeys_object_iff.mp hsound.distinct).1

theorem Sound.of_mem {entries : List (String × Json)}
    (hsound : (object entries).Sound) {entry : String × Json}
    (hmem : entry ∈ entries) : entry.2.Sound :=
  ⟨(distinctKeys_object_iff.mp hsound.distinct).2 entry hmem,
    fieldsFinite_iff.mp hsound.finite entry hmem⟩

theorem Sound.of_get? {entries : List (String × Json)}
    (hsound : (object entries).Sound) {key : String} {value : Json}
    (hget : Entries.get? entries key = some value) : value.Sound :=
  hsound.of_mem (Entries.mem_of_get?_eq_some hget)

mutual

theorem unlabelled_toValue :
    ∀ value : Json, value.toValue.unlabelled = value.toValue
  | null | bool _ | int _ | float _ | text _ => rfl
  | array items => congrArg (Value.list none) (unlabelledItems_toValues items)
  | object entries =>
      congrArg (Value.mapping none) (unlabelledEntries_toFields entries)

theorem unlabelledItems_toValues : ∀ items : List Json,
    Value.unlabelledItems (toValues items) = toValues items
  | [] => rfl
  | item :: rest => by
      rw [toValues, Value.unlabelledItems, unlabelled_toValue item,
        unlabelledItems_toValues rest]

theorem unlabelledEntries_toFields : ∀ entries : List (String × Json),
    Value.unlabelledEntries (toFields entries) = toFields entries
  | [] => rfl
  | (key, value) :: rest => by
      rw [toFields, Value.unlabelledEntries, unlabelled_toValue value,
        unlabelledEntries_toFields rest]

end

end Json

namespace Resource

mutual

theorem dumpIn_unlabelled (levels : Nat) : ∀ value : Value,
    dumpIn levels value.unlabelled = dumpIn levels value
  | .scalar _ => rfl
  | .list _ items => by
      rw [Value.unlabelled, dumpIn, dumpIn,
        dumpItems_unlabelled (levels - 1) items]
  | .mapping _ entries => by
      rw [Value.unlabelled, dumpIn, dumpIn,
        dumpEntries_unlabelled (levels - 1) entries]
  | .set _ _ => by rw [Value.unlabelled, dumpIn, dumpIn]
  | .pair first second => by
      rw [Value.unlabelled, dumpIn, dumpIn,
        dumpIn_unlabelled (levels - 1) first,
        dumpIn_unlabelled (levels - 1) second]
  | .back _ => rfl

theorem dumpItems_unlabelled (levels : Nat) : ∀ items : List Value,
    dumpItems levels (Value.unlabelledItems items) = dumpItems levels items
  | [] => rfl
  | item :: rest => by
      rw [Value.unlabelledItems, dumpItems, dumpItems,
        dumpIn_unlabelled levels item, dumpItems_unlabelled levels rest]

theorem dumpEntries_unlabelled (levels : Nat) :
    ∀ entries : List (Scalar × Value),
      dumpEntries levels (Value.unlabelledEntries entries) =
        dumpEntries levels entries
  | [] => rfl
  | (key, value) :: rest => by
      rw [Value.unlabelledEntries, dumpEntries, dumpEntries,
        dumpIn_unlabelled levels value, dumpEntries_unlabelled levels rest]

end

mutual

theorem height_le_of_dumpIn : ∀ {json : Json} {levels : Nat} {dumped : Json},
    dumpIn levels json.toValue = .ok dumped → json.height ≤ levels
  | .null, _, _, hdump | .bool _, _, _, hdump | .int _, _, _, hdump
  | .float _, _, _, hdump | .text _, _, _, hdump =>
      Nat.one_le_iff_ne_zero.mpr (dumpIn_scalar_eq_ok_iff.mp hdump).1
  | .array items, levels, _, hdump => by
      obtain ⟨hlevels, _, hitems, -⟩ := dumpIn_list_eq_ok_iff.mp hdump
      have hheight := heightOfItems_le_of_dumpItems hitems
      rw [Json.height]
      omega
  | .object entries, levels, _, hdump => by
      obtain ⟨hlevels, _, hentries, -⟩ := dumpIn_mapping_eq_ok_iff.mp hdump
      have hheight := heightOfFields_le_of_dumpEntries hentries
      rw [Json.height]
      omega

theorem heightOfItems_le_of_dumpItems :
    ∀ {items : List Json} {levels : Nat} {dumped : List Json},
      dumpItems levels (Json.toValues items) = .ok dumped →
        Json.heightOfItems items ≤ levels
  | [], _, _, _ => Nat.zero_le _
  | item :: rest, levels, _, hdump => by
      obtain ⟨_, _, hfirst, hmore, -⟩ := dumpItems_cons_eq_ok_iff.mp hdump
      exact max_le (height_le_of_dumpIn hfirst)
        (heightOfItems_le_of_dumpItems hmore)

theorem heightOfFields_le_of_dumpEntries :
    ∀ {entries : List (String × Json)} {levels : Nat}
    {dumped : List (String × Json)},
    dumpEntries levels (Json.toFields entries) = .ok dumped →
      Json.heightOfFields entries ≤ levels
  | [], _, _, _ => Nat.zero_le _
  | (_, value) :: rest, levels, _, hdump => by
      obtain ⟨_, _, _, -, hfirst, hmore, -⟩ :=
        dumpEntries_cons_eq_ok_iff.mp hdump
      exact max_le (height_le_of_dumpIn hfirst)
        (heightOfFields_le_of_dumpEntries hmore)

end

mutual

theorem dumped_of_height_le : ∀ {json : Json} {levels : Nat},
    json.DistinctKeys → json.IsFinite →
    json.height ≤ levels → Dumped levels json
  | .null, _, _, _, hheight | .bool _, _, _, _, hheight | .int _, _,
      _, _, hheight
  | .text _, _, _, _, hheight =>
      dumpIn_scalar_eq_ok_iff.mpr ⟨Nat.one_le_iff_ne_zero.mp hheight, rfl⟩
  | .float value, _, _, hfinite, hheight => by
      have hfinite : value.isFinite = true := hfinite
      have hdump : dumpScalar (.float value) = .ok (.float value) := by
        rw [dumpScalar, if_pos hfinite]
      exact dumped_dumpScalar (Nat.one_le_iff_ne_zero.mp hheight) hdump
  | .array items, levels, hdistinct, hfinite, hheight => by
      rw [Json.height] at hheight
      exact Dumped.array (by omega)
        (dumped_of_heightOfItems_le hdistinct hfinite (by omega))
  | .object entries, levels, hdistinct, hfinite, hheight => by
      rw [Json.height] at hheight
      have hobject := Dumped.object (show levels ≠ 0 by omega)
        (dumped_of_heightOfFields_le hdistinct.2 hfinite (by omega))
      rwa [Json.uniqueEntries, Entries.ofPairs_of_nodup hdistinct.1] at hobject

theorem dumped_of_heightOfItems_le : ∀ {items : List Json} {levels : Nat},
    Json.AllDistinctKeys items → Json.AllFinite items →
      Json.heightOfItems items ≤ levels → ∀ item ∈ items, Dumped levels item
  | [], _, _, _, _ => nofun
  | item :: rest, levels, hdistinct, hfinite, hheight => by
      obtain ⟨hfirst, hrest⟩ := Nat.max_le.mp hheight
      exact List.forall_mem_cons.mpr
        ⟨dumped_of_height_le hdistinct.1 hfinite.1 hfirst,
          dumped_of_heightOfItems_le hdistinct.2 hfinite.2 hrest⟩

theorem dumped_of_heightOfFields_le :
    ∀ {entries : List (String × Json)} {levels : Nat},
      Json.FieldsDistinctKeys entries → Json.FieldsFinite entries →
      Json.heightOfFields entries ≤ levels →
        ∀ entry ∈ entries, Dumped levels entry.2
  | [], _, _, _, _ => nofun
  | (_, value) :: rest, levels, hdistinct, hfinite, hheight => by
      obtain ⟨hfirst, hrest⟩ := Nat.max_le.mp hheight
      exact List.forall_mem_cons.mpr
        ⟨dumped_of_height_le hdistinct.1 hfinite.1 hfirst,
          dumped_of_heightOfFields_le hdistinct.2 hfinite.2 hrest⟩

end

/-- Fields of JSON data have dumps exactly if none lies too deep, and the dumps
are the fields. -/
theorem dumpEntries_eq_ok_iff {levels : Nat} {entries : List (Scalar × Value)}
    {fields dumped : List (String × Json)}
    (hentries : Value.unlabelledEntries entries = Json.toFields fields)
    (hsound : ∀ field ∈ fields, field.2.Sound) :
    dumpEntries levels entries = .ok dumped ↔
      (∀ field ∈ fields, field.2.height ≤ levels) ∧ dumped = fields := by
  have hdumps (hheight : ∀ field ∈ fields, field.2.height ≤ levels) :
      dumpEntries levels (Json.toFields fields) = .ok fields :=
    dumpEntries_toFields fun field hmem =>
      dumped_of_height_le (hsound field hmem).distinct
        (hsound field hmem).finite (hheight field hmem)
  rw [← dumpEntries_unlabelled, hentries]
  constructor
  · intro hdump
    have hheight :=
      Json.heightOfFields_le_iff.mp (heightOfFields_le_of_dumpEntries hdump)
    exact ⟨hheight, Except.ok.inj (hdump.symm.trans (hdumps hheight))⟩
  · rintro ⟨hheight, rfl⟩
    exact hdumps hheight

theorem heightOfFields_dumpExtras_le {extras : List (String × Value)}
    {dumped : List (String × Json)} (hdump : dumpExtras extras = .ok dumped) :
    ∀ field ∈ dumped, field.2.height ≤ depthLimit := by
  induction extras generalizing dumped with
  | nil =>
      cases hdump
      exact fun _ hmem => absurd hmem List.not_mem_nil
  | cons extra rest ih =>
      obtain ⟨first, hfirst, hdump⟩ := bind_eq_ok_iff.mp hdump
      obtain ⟨more, hmore, heq⟩ := bind_eq_ok_iff.mp hdump
      cases heq
      exact List.forall_mem_cons.mpr
        ⟨height_le_of_dumpIn (dumped_dumpIn hfirst), ih hmore⟩

theorem height_textField_le (key : String) (value : Option String) :
    ∀ field ∈ textField key value, field.2.height ≤ depthLimit := by
  intro field hmem
  obtain ⟨text, -, rfl⟩ := List.mem_map.mp hmem
  exact show 1 ≤ depthLimit by decide

theorem height_textsField_le (key : String)
    (value : Option (List (String × String))) :
    ∀ field ∈ textsField key value, field.2.height ≤ depthLimit := by
  intro field hmem
  obtain ⟨pairs, -, rfl⟩ := List.mem_map.mp hmem
  have htexts : Json.heightOfFields
      (pairs.map fun pair => (pair.1, .text pair.2)) ≤ 1 :=
    Json.heightOfFields_le_iff.mpr
      (List.forall_mem_map.mpr fun _ _ => Nat.le_refl _)
  exact Nat.le_trans (Nat.succ_le_succ htexts) (by decide)

theorem height_dumpMetadata_le {metadata : Metadata} {json : Json}
    (hdump : dumpMetadata metadata = .ok json) :
    json.height ≤ depthLimit + 1 := by
  obtain ⟨extras, hextras, rfl⟩ := dumpMetadata_eq_ok hdump
  refine Nat.succ_le_succ (Json.heightOfFields_le_iff.mpr ?_)
  simp only [List.forall_mem_append]
  exact ⟨⟨⟨⟨height_textField_le _ _, height_textField_le _ _⟩,
    height_textsField_le _ _⟩,
    height_textsField_le _ _⟩, heightOfFields_dumpExtras_le hextras⟩

theorem height_toJson_le {resource : Resource} {json : Json}
    (hdump : toJson resource = .ok json) : json.height ≤ depthLimit + 2 := by
  obtain ⟨metadata, extras, hmetadata, hextras, rfl⟩ := toJson_eq_ok hdump
  refine Nat.succ_le_succ (Json.heightOfFields_le_iff.mpr ?_)
  simp only [List.forall_mem_append, List.forall_mem_cons]
  exact ⟨fun field hmem =>
    Nat.le_succ_of_le (height_textField_le _ _ field hmem), show 1 ≤
      depthLimit + 1 by decide, height_dumpMetadata_le hmetadata,
    fun field hmem =>
      Nat.le_succ_of_le (heightOfFields_dumpExtras_le hextras field hmem)⟩

end Resource

end Fragments
