import Fragments.Proofs.Data.Outcome
import Fragments.Proofs.Data.Sharing
import Fragments.Yaml.Read

namespace Fragments

namespace Scalar

theorem same_refl (key : Scalar) : key.same key = true := by
  cases key with
  | float value => cases value <;> simp [same, Binary64.same]
  | moment value => simp [same, Moment.same]
  | null | bool _ | int _ | text _ | bytes _ | date _ => simp [same, integer?]

end Scalar

namespace Yaml

def Part.scalar? : Part → Option Scalar
  | .scalar value => some value
  | .container _ => none

def Filling.outline : Filling → List (Scalar × Option Scalar)
  | .mapping entries => entries.map fun entry => (entry.1, entry.2.scalar?)
  | _ => []

namespace Works

def Distinct (works : Works) : Prop :=
  ∀ i filling, works.filled.lookup i = some filling →
    (filling.outline.map Prod.fst).Nodup

theorem filled_part {works after : Works} {i : Nat} {part : Part}
    (hpart : works.part i = .ok (part, after)) :
    after.filled = works.filled := by
  simp only [Works.part] at hpart
  split at hpart
  · cases hpart; rfl
  · split at hpart
    · cases hpart; rfl
    · split at hpart
      · cases hpart; rfl
      · obtain ⟨value, -, hdone⟩ := bind_eq_ok_iff.mp hpart
        cases hdone; rfl

theorem filled_parts {works after : Works} {nodes : List Nat}
    {parts : List Part} (hparts : works.parts nodes = .ok (parts, after)) :
    after.filled = works.filled := by
  induction nodes generalizing works after parts with
  | nil => cases hparts; rfl
  | cons i rest ih =>
      obtain ⟨⟨first, afterFirst⟩, hfirst, hparts⟩ := bind_eq_ok_iff.mp hparts
      obtain ⟨⟨more, last⟩, hmore, hdone⟩ := bind_eq_ok_iff.mp hparts
      cases hdone
      exact (ih hmore).trans (filled_part hfirst)

theorem entries_eq_ok {works after : Works}
    {built entries : List (Scalar × Part)} {nodes : List (Nat × Nat)}
    (hentries : works.entries built nodes = .ok (entries, after))
    (hnodup : (built.map Prod.fst).Nodup) :
    (entries.map Prod.fst).Nodup ∧ after.filled = works.filled := by
  induction nodes generalizing works built with
  | nil => cases hentries; exact ⟨hnodup, rfl⟩
  | cons node rest ih =>
      obtain ⟨⟨keyPart, afterKey⟩, hkey, hentries⟩ := bind_eq_ok_iff.mp hentries
      cases keyPart with
      | container _ => cases hentries
      | scalar key =>
          obtain ⟨⟨valuePart, afterValue⟩, hvalue, hentries⟩ :=
            bind_eq_ok_iff.mp hentries
          have hrest := ih hentries
            (Entries.nodup_assign Scalar.same_refl hnodup)
          exact ⟨hrest.1,
            hrest.2.trans ((filled_part hvalue).trans (filled_part hkey))⟩

theorem mappingEntries_eq_ok {works after : Works} {i : Nat}
    {entries : List (Scalar × Part)}
    (hentries : works.mappingEntries i = .ok (entries, after)) :
    (entries.map Prod.fst).Nodup ∧ after.filled = works.filled := by
  unfold mappingEntries at hentries
  split at hentries
  · obtain ⟨graph, -, hentries⟩ := bind_eq_ok_iff.mp hentries
    have hdone := Works.entries_eq_ok hentries List.nodup_nil
    exact hdone
  · cases hentries

theorem filled_pairList {works after : Works} {nodes : List Nat}
    {pairs : List (Part × Part)}
    (hpairs : works.pairList nodes = .ok (pairs, after)) :
    after.filled = works.filled := by
  induction nodes generalizing works after pairs with
  | nil => cases hpairs; rfl
  | cons i rest ih =>
      unfold pairList at hpairs
      split at hpairs
      · obtain ⟨⟨keyPart, afterKey⟩, hkey, hpairs⟩ := bind_eq_ok_iff.mp hpairs
        obtain ⟨⟨valuePart, afterValue⟩, hvalue, hpairs⟩ :=
          bind_eq_ok_iff.mp hpairs
        obtain ⟨⟨more, last⟩, hmore, hdone⟩ := bind_eq_ok_iff.mp hpairs
        cases hdone
        exact (ih hmore).trans ((filled_part hvalue).trans (filled_part hkey))
      · cases hpairs

theorem fill_eq_ok {works after : Works} {i : Nat}
    (hfill : works.fill i = .ok after) :
    ∃ filling, after.filled = (i, filling) :: works.filled ∧
      (filling.outline.map Prod.fst).Nodup := by
  simp only [Works.fill] at hfill
  split at hfill
  · obtain ⟨⟨parts, next⟩, hparts, hdone⟩ := bind_eq_ok_iff.mp hfill
    cases hdone
    exact ⟨.list parts, by rw [filled_parts hparts], List.nodup_nil⟩
  · obtain ⟨⟨entries, next⟩, hentries, hdone⟩ := bind_eq_ok_iff.mp hfill
    cases hdone
    have hnodup := mappingEntries_eq_ok hentries
    refine ⟨.mapping entries, by rw [hnodup.2], ?_⟩
    rw [Filling.outline, List.map_map]
    exact hnodup.1
  · obtain ⟨⟨entries, next⟩, hentries, hdone⟩ := bind_eq_ok_iff.mp hfill
    cases hdone
    exact ⟨.set (entries.map Prod.fst), by
      rw [(mappingEntries_eq_ok hentries).2], List.nodup_nil⟩
  · obtain ⟨⟨pairs, next⟩, hpairs, hdone⟩ := bind_eq_ok_iff.mp hfill
    cases hdone
    exact ⟨.pairs pairs, by rw [filled_pairList hpairs], List.nodup_nil⟩
  · obtain ⟨⟨pairs, next⟩, hpairs, hdone⟩ := bind_eq_ok_iff.mp hfill
    cases hdone
    exact ⟨.pairs pairs, by rw [filled_pairList hpairs], List.nodup_nil⟩
  · cases hfill

theorem Distinct.fill {works after : Works} {i : Nat}
    (hdistinct : works.Distinct) (hfill : works.fill i = .ok after) :
    after.Distinct := by
  obtain ⟨filling, hfilled, hnodup⟩ := fill_eq_ok hfill
  intro j found hfound
  rw [hfilled, List.lookup_cons] at hfound
  split at hfound
  · cases hfound
    exact hnodup
  · exact hdistinct j found hfound

theorem Distinct.fillAll {fuel : Nat} {works done : Works}
    (hdistinct : works.Distinct) (hfill : Works.fillAll fuel works = .ok done) :
    done.Distinct := by
  induction fuel generalizing works with
  | zero => cases hfill; exact hdistinct
  | succ fuel ih =>
      unfold Works.fillAll at hfill
      split at hfill
      · cases hfill; exact hdistinct
      · next i rest _ =>
          obtain ⟨next, hnext, hfill⟩ := bind_eq_ok_iff.mp hfill
          have hwaiting : { works with waiting := rest }.Distinct := hdistinct
          exact ih (hwaiting.fill hnext) hfill

end Works

namespace Unrolling

def outlines (u : Unrolling) (i : Nat) : List (Scalar × Option Scalar) :=
  ((u.filled.lookup i).map Filling.outline).getD []

def label (u : Unrolling) (i : Nat) : Option Nat := if u.shared.contains i then
    some i else none

/-- A container as it is shown below those in `above`, given how its parts are
shown. -/
theorem part_container (u : Unrolling) (fuel : Nat) (above : List Nat)
    (i : Nat) :
    u.part (fuel + 1) above (.container i) =
      if above.contains i then .back i
      else
        match u.filled.lookup i with
        | some (.list parts) =>
            .list (u.label i) (parts.map (u.part fuel (i :: above)))
        | some (.mapping entries) =>
            .mapping (u.label i)
              (entries.map fun entry =>
                (entry.1, u.part fuel (i :: above) entry.2))
        | some (.set elements) => .set (u.label i) elements
        | some (.pairs list) =>
            .list (u.label i)
              (list.map fun (a, b) =>
                .pair (u.part fuel (i :: above) a) (u.part fuel (i :: above) b))
        | none => .back i :=
  rfl

@[simp] theorem part_zero (u : Unrolling) (above : List Nat) (i : Nat) :
    u.part 0 above (.container i) = .back i :=
  rfl

@[simp] theorem part_scalar (u : Unrolling) (fuel : Nat) (above : List Nat)
    (value : Scalar) :
    u.part fuel above (.scalar value) = .scalar value := by
  cases fuel <;> rfl

theorem label_eq_some {u : Unrolling} {i label : Nat}
    (hlabel : u.label i = some label) :
    i = label := by
  unfold Unrolling.label at hlabel
  split at hlabel
  · exact Option.some.inj hlabel
  · cases hlabel

theorem scalar?_part (u : Unrolling) (fuel : Nat) (above : List Nat)
    (part : Part) :
    (u.part fuel above part).scalar? = part.scalar? := by
  cases part with
  | scalar value => rw [part_scalar]; rfl
  | container i =>
      cases fuel with
      | zero => rw [part_zero]; rfl
      | succ fuel =>
          rw [part_container]
          split
          · rfl
          · split <;> rfl

theorem outline_map_part (u : Unrolling) (fuel : Nat) (above : List Nat)
    (entries : List (Scalar × Part)) :
    Value.outline (entries.map fun entry =>
      (entry.1, u.part fuel above entry.2)) =
      (Filling.mapping entries).outline := by
  simp only [Value.outline, Filling.outline, List.map_map]
  refine List.map_congr_left fun entry _ => ?_
  rw [Function.comp_apply, scalar?_part]

theorem outlined_part (u : Unrolling) (fuel : Nat) (above : List Nat)
    (part : Part) :
    (u.part fuel above part).Outlined u.outlines := by
  induction fuel generalizing above part with
  | zero =>
      cases part with
      | scalar value => rw [part_scalar]; exact trivial
      | container i => rw [part_zero]; exact trivial
  | succ fuel ih =>
      cases part with
      | scalar value => rw [part_scalar]; exact trivial
      | container i =>
          rw [part_container]
          split
          · exact trivial
          · split
            · exact Value.OutlinedItems.map fun part => ih _ part
            · next entries hfilled =>
                refine ⟨fun label hlabel => ?_, Value.OutlinedEntries.map
                  fun entry => ih _ entry.2⟩
                rw [outline_map_part, outlines, ← label_eq_some hlabel, hfilled]
                rfl
            · exact trivial
            · exact Value.OutlinedItems.map fun pair =>
                ⟨ih _ pair.1, ih _ pair.2⟩
            · exact trivial

theorem not_mem_of_label?_part {u : Unrolling} {fuel : Nat} {above : List Nat}
    {part : Part} {label : Nat}
    (hlabel : (u.part fuel above part).label? = some label) :
    label ∉ above := by
  cases part with
  | scalar value => rw [part_scalar] at hlabel; cases hlabel
  | container i =>
      cases fuel with
      | zero => rw [part_zero] at hlabel; cases hlabel
      | succ fuel =>
          rw [part_container] at hlabel
          split at hlabel
          · cases hlabel
          · next hnot =>
              have heq : i = label := by
                split at hlabel
                · exact label_eq_some hlabel
                · exact label_eq_some hlabel
                · exact label_eq_some hlabel
                · exact label_eq_some hlabel
                · cases hlabel
              simpa [heq] using hnot

/-- A mapping at the root is coherent: what it mentions is not the mapping
itself. -/
theorem coherent_of_part_eq {u : Unrolling} {fuel : Nat} {part : Part}
    {label : Option Nat} {entries : List (Scalar × Value)}
    (hdistinct : ∀ i, ((u.outlines i).map Prod.fst).Nodup)
    (hroot : u.part fuel [] part = .mapping label entries) :
    (Fragment.mk label entries).Coherent u.outlines := by
  have houtlined := u.outlined_part fuel [] part
  rw [hroot] at houtlined
  refine ⟨houtlined.2, hdistinct, ?_⟩
  intro key value own hmem hown heq
  cases part with
  | scalar scalar => rw [part_scalar] at hroot; cases hroot
  | container i =>
      cases fuel with
      | zero => rw [part_zero] at hroot; cases hroot
      | succ fuel =>
          rw [part_container, if_neg (by simp)] at hroot
          split at hroot
          · cases hroot
          · cases hroot
            obtain ⟨entry, -, heq⟩ := List.mem_map.mp hmem
            cases heq
            have hnot := not_mem_of_label?_part hown
            exact hnot (List.mem_singleton.mpr (label_eq_some heq).symm)
          · cases hroot
          · cases hroot
          · cases hroot

end Unrolling

theorem build_eq_ok {root : Nat} {graph : Graph} {value : Value}
    (hbuild : build root graph = .ok value) :
    ∃ (u : Unrolling) (fuel : Nat) (part : Part), u.part fuel [] part = value ∧
      ∀ i, ((u.outlines i).map Prod.fst).Nodup := by
  obtain ⟨⟨part, works⟩, hpart, hbuild⟩ := bind_eq_ok_iff.mp hbuild
  obtain ⟨done, hdone, hvalue⟩ := bind_eq_ok_iff.mp hbuild
  have hstart : works.Distinct := by
    intro i filling hfilling
    rw [Works.filled_part hpart] at hfilling
    cases hfilling
  refine ⟨_, _, _, Except.ok.inj hvalue, fun i => ?_⟩
  unfold Unrolling.outlines
  cases hfilled : done.filled.lookup i with
  | none => exact List.nodup_nil
  | some filling => exact hstart.fillAll hdone i filling hfilled

/-- What is read is nothing or has been unrolled. -/
theorem unrolled_of_read_eq {chars : List Char} {value : Value}
    (hread : read chars = .ok value) :
    value = .null ∨ ∃ (u : Unrolling) (fuel : Nat) (part : Part),
      u.part fuel [] part = value ∧
        ∀ i, ((u.outlines i).map Prod.fst).Nodup := by
  unfold read at hread
  split at hread
  · cases hread
  · obtain ⟨tree, -, hread⟩ := bind_eq_ok_iff.mp hread
    split at hread
    · exact .inl (Except.ok.inj hread).symm
    · obtain ⟨⟨root, graph⟩, -, hread⟩ := bind_eq_ok_iff.mp hread
      obtain ⟨built, hbuild, hshallow⟩ := bind_eq_ok_iff.mp hread
      split at hshallow
      · cases hshallow
      · cases hshallow
        exact .inr (build_eq_ok hbuild)

theorem coherent_of_read_eq {chars : List Char} {label : Option Nat}
    {entries : List (Scalar × Value)}
    (hread : read chars = .ok (.mapping label entries)) :
    ∃ outlines, (Fragment.mk label entries).Coherent outlines := by
  rcases unrolled_of_read_eq hread with
    hnull | ⟨u, fuel, part, hroot, hdistinct⟩
  · cases hnull
  · exact ⟨u.outlines, Unrolling.coherent_of_part_eq hdistinct hroot⟩

end Yaml

end Fragments
