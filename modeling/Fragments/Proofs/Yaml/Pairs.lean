import Fragments.Data.Apart
import Fragments.Proofs.Data.Parts
import Fragments.Proofs.Yaml.Unrolling

namespace Fragments

namespace Value

theorem tieItems_eq_map (label : Nat) (whole : Value) (items : List Value) :
    tieItems label whole items = items.map (tie label whole) := by
  induction items with
  | nil => rfl
  | cons item rest ih => rw [tieItems, ih, List.map_cons]

theorem tieEntries_eq_map (label : Nat) (whole : Value)
    (entries : List (Scalar × Value)) :
    tieEntries label whole entries =
      entries.map fun entry => (entry.1, tie label whole entry.2) := by
  induction entries with
  | nil => rfl
  | cons entry rest ih => rw [tieEntries, ih, List.map_cons]

theorem cutItems_eq_map (above : List Nat) (items : List Value) :
    cutItems above items = items.map (cut above) := by
  induction items with
  | nil => rfl
  | cons item rest ih => rw [cutItems, ih, List.map_cons]

theorem cutEntries_eq_map (above : List Nat) (entries : List (Scalar × Value)) :
    cutEntries above entries = entries.map fun entry =>
      (entry.1, cut above entry.2) := by
  induction entries with
  | nil => rfl
  | cons entry rest ih => rw [cutEntries, ih, List.map_cons]

def IsPair : Value → Prop
  | pair _ _ => True
  | _ => False

/-- No mapping inside the value has a pair under a key. -/
def Unpaired (value : Value) : Prop :=
  ∀ depth part, Occurs (fun entries entry => entry ∈ entries) depth part value →
    ∀ label entries, part = .mapping label entries →
      ∀ entry ∈ entries, ¬entry.2.IsPair

theorem unpaired_scalar (value : Scalar) : (scalar value).Unpaired :=
  forall_occurs_scalar_iff.mpr nofun

theorem unpaired_set (label : Option Nat) (elements : List Scalar) :
    (set label elements).Unpaired :=
  forall_occurs_set_iff.mpr nofun

theorem unpaired_back (label : Nat) : (back label).Unpaired :=
  forall_occurs_back_iff.mpr nofun

theorem unpaired_list_iff {label : Option Nat} {items : List Value} :
    (list label items).Unpaired ↔ ∀ item ∈ items, item.Unpaired :=
  forall_occurs_list_iff.trans (and_iff_right nofun)

theorem unpaired_pair_iff {first second : Value} :
    (pair first second).Unpaired ↔ first.Unpaired ∧ second.Unpaired :=
  forall_occurs_pair_iff.trans (and_iff_right nofun)

theorem unpaired_mapping_iff {label : Option Nat}
    {entries : List (Scalar × Value)} :
    (mapping label entries).Unpaired ↔ ∀ entry ∈ entries, ¬entry.2.IsPair ∧
      entry.2.Unpaired := by
  rw [Unpaired, forall_occurs_mapping_iff]
  constructor
  · rintro ⟨hown, hentries⟩ entry hmem
    exact ⟨hown label entries rfl entry hmem, hentries entry hmem⟩
  · intro hall
    refine ⟨fun own inner heq entry hmem => ?_, fun entry hmem =>
      (hall entry hmem).2⟩
    cases heq
    exact (hall entry hmem).1

variable {whole part value : Value}

theorem isPair_cut {above : List Nat} (hpair : (cut above value).IsPair) :
    value.IsPair := by
  cases value with
  | pair first second => exact trivial
  | list own items =>
      unfold cut at hpair
      split at hpair <;> exact hpair
  | mapping own entries =>
      unfold cut at hpair
      split at hpair <;> exact hpair
  | scalar _ | set _ _ | back _ => exact hpair

theorem isPair_tie {label : Nat} (hwhole : ¬whole.IsPair)
    (hpair : (tie label whole value).IsPair) :
    value.IsPair := by
  cases value with
  | pair first second => exact trivial
  | back target =>
      unfold tie at hpair
      split at hpair
      · exact absurd hpair hwhole
      · exact hpair
  | scalar _ | list _ _ | mapping _ _ | set _ _ => exact hpair

theorem Unpaired.cut (hvalue : value.Unpaired) (above : List Nat) :
    (cut above value).Unpaired := by
  induction value using byParts generalizing above with
  | scalar value => exact unpaired_scalar value
  | set label elements => exact unpaired_set label elements
  | back label => exact unpaired_back label
  | pair first second ihFirst ihSecond =>
      obtain ⟨hfirst, hsecond⟩ := unpaired_pair_iff.mp hvalue
      exact unpaired_pair_iff.mpr ⟨ihFirst hfirst above, ihSecond hsecond above⟩
  | list own items ih =>
      unfold Value.cut
      split
      · exact unpaired_back _
      · rw [cutItems_eq_map, unpaired_list_iff, List.forall_mem_map]
        exact fun item hmem =>
          ih item hmem (unpaired_list_iff.mp hvalue item hmem) _
  | mapping own entries ih =>
      unfold Value.cut
      split
      · exact unpaired_back _
      · rw [cutEntries_eq_map, unpaired_mapping_iff, List.forall_mem_map]
        intro entry hmem
        obtain ⟨hpair, hentry⟩ := unpaired_mapping_iff.mp hvalue entry hmem
        exact ⟨fun hcut => hpair (isPair_cut hcut), ih entry hmem hentry _⟩

theorem Unpaired.tie (hvalue : value.Unpaired) (hwhole : whole.Unpaired)
    (hpair : ¬whole.IsPair) (label : Nat) :
    (tie label whole value).Unpaired := by
  induction value using byParts with
  | scalar value => exact unpaired_scalar value
  | set own elements => exact unpaired_set own elements
  | back target =>
      unfold Value.tie
      split
      · exact hwhole
      · exact unpaired_back target
  | pair first second ihFirst ihSecond =>
      obtain ⟨hfirst, hsecond⟩ := unpaired_pair_iff.mp hvalue
      exact unpaired_pair_iff.mpr ⟨ihFirst hfirst, ihSecond hsecond⟩
  | list own items ih =>
      rw [Value.tie, tieItems_eq_map, unpaired_list_iff, List.forall_mem_map]
      exact fun item hmem =>
        ih item hmem (unpaired_list_iff.mp hvalue item hmem)
  | mapping own entries ih =>
      rw [Value.tie, tieEntries_eq_map, unpaired_mapping_iff,
        List.forall_mem_map]
      intro entry hmem
      obtain ⟨hentry, hinside⟩ := unpaired_mapping_iff.mp hvalue entry hmem
      exact ⟨fun htied => hentry (isPair_tie hpair htied),
        ih entry hmem hinside⟩

theorem not_isPair_of_label? {label : Nat}
    (hlabel : value.label? = some label) : ¬value.IsPair := by
  cases value with
  | pair first second => cases hlabel
  | scalar _ | list _ _ | mapping _ _ | set _ _ | back _ => exact id

theorem isPair_takenFrom (hpair : (takenFrom whole part).IsPair) :
    part.IsPair := by
  unfold takenFrom at hpair
  split at hpair
  · exact hpair
  · next hlabel =>
      exact isPair_tie (not_isPair_of_label? hlabel) (isPair_cut hpair)

theorem Unpaired.takenFrom (hwhole : whole.Unpaired) (hpart : part.Unpaired) :
    (takenFrom whole part).Unpaired := by
  unfold Value.takenFrom
  split
  · exact hpart
  · next label hlabel =>
      exact (hpart.tie hwhole (not_isPair_of_label? hlabel) label).cut []

theorem Unpaired.apart (hvalue : value.Unpaired) : value.apart.Unpaired := by
  cases value with
  | list own items =>
      rw [Value.apart, unpaired_list_iff, List.forall_mem_map]
      exact fun item hmem =>
        hvalue.takenFrom (unpaired_list_iff.mp hvalue item hmem)
  | mapping own entries =>
      rw [Value.apart, unpaired_mapping_iff, List.forall_mem_map]
      intro entry hmem
      obtain ⟨hpair, hentry⟩ := unpaired_mapping_iff.mp hvalue entry hmem
      exact ⟨fun htaken => hpair (isPair_takenFrom htaken),
        hvalue.takenFrom hentry⟩
  | scalar _ | set _ _ | pair _ _ | back _ => exact hvalue

end Value

namespace Yaml

end Yaml

end Fragments
