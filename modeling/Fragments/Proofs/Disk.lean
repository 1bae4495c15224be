import Fragments.Disk
import Fragments.Proofs.Data.Entries
import Fragments.Proofs.Data.Outcome

namespace Fragments

namespace Node

theorem at?_put (node : Node) (location : Location) (tree : Node) :
    (put node location tree).at? location = some node := by
  induction location generalizing tree with
  | nil => cases tree <;> simp [put, at?]
  | cons name rest ih =>
      cases tree with
      | file content => simp [put, at?, Entries.get?, ih]
      | directory entries => simp [put, at?, ih]

theorem at?_append (tree : Node) (location : Location) (name : String) :
    tree.at? (location ++ [name]) =
      match tree.at? location with
      | some (.directory entries) => Entries.get? entries name
      | _ => none := by
  induction location generalizing tree with
  | nil =>
      cases tree with
      | file content => simp [at?]
      | directory entries =>
          simp only [List.nil_append, at?]
          cases Entries.get? entries name <;> simp
  | cons first rest ih =>
      cases tree with
      | file content => simp [at?]
      | directory entries =>
          simp only [List.cons_append, at?]
          cases Entries.get? entries first with
          | none => rfl
          | some node => exact ih node

@[simp] theorem at?_nil (tree : Node) : tree.at? [] = some tree := by
  cases tree <;> rfl

theorem directory_at?_put (node : Node) {location other : Location}
    {tree : Node} {entries : List (String × Node)}
    (hother : tree.at? other = some (.directory entries))
    (hplace : ∀ inner, tree.at? location ≠ some (.directory inner)) :
    ∃ kept, (put node location tree).at? other = some (.directory kept) ∧
      ∀ name, (Entries.get? entries name).isSome →
        (Entries.get? kept name).isSome := by
  induction other generalizing tree location with
  | nil =>
      rw [at?_nil] at hother
      cases hother
      cases location with
      | nil => exact absurd (at?_nil _) (hplace entries)
      | cons first rest =>
          refine ⟨_, at?_nil _, fun name hname => ?_⟩
          rw [Entries.get?_assign]
          split
          · rfl
          · exact hname
  | cons step steps ih =>
      cases tree with
      | file content => cases hother
      | directory outer =>
          cases location with
          | nil => exact absurd (at?_nil _) (hplace outer)
          | cons first rest =>
              simp only [at?] at hother hplace
              simp only [put, at?, Entries.get?_assign]
              split at hother
              · next child hchild =>
                  by_cases heq : first = step
                  · subst heq
                    simp only [hchild] at hplace
                    simp only [if_pos, hchild, Option.getD_some]
                    exact ih hother hplace
                  · rw [if_neg heq, hchild]
                    exact ⟨entries, hother, fun _ hname => hname⟩
              · cases hother

def content? : Node → Option (List UInt8)
  | file content => some content
  | directory _ => none

theorem exists_at?_dropLast {location : Location} {tree node : Node}
    (hnode : tree.at? location = some node) (hbelow : location ≠ []) :
    ∃ entries, tree.at? location.dropLast = some (.directory entries) := by
  rw [← List.dropLast_concat_getLast hbelow, at?_append] at hnode
  split at hnode
  · next entries hparent => exact ⟨entries, hparent⟩
  · cases hnode

theorem content?_at?_put (content : List UInt8) {location other : Location}
    {tree : Node} (hother : other ≠ location)
    (hparent : location ≠ [] →
      ∃ entries, tree.at? location.dropLast = some (.directory entries))
    (hplace : ∀ inner, tree.at? location ≠ some (.directory inner)) :
    ((put (.file content) location tree).at? other).map content? =
      (tree.at? other).map content? := by
  induction location generalizing other tree with
  | nil =>
      cases other with
      | nil => exact absurd rfl hother
      | cons step steps =>
          cases tree with
          | file old => rfl
          | directory outer => exact absurd (at?_nil _) (hplace outer)
  | cons first rest ih =>
      obtain ⟨entries, hentries⟩ := hparent (List.cons_ne_nil first rest)
      cases tree with
      | file old =>
          cases rest <;> cases hentries
      | directory outer =>
          cases other with
          | nil => rfl
          | cons step steps =>
              simp only [put, at?, Entries.get?_assign]
              by_cases hstep : first = step
              · subst hstep
                have hsteps : steps ≠ rest := fun heq => hother (by rw [heq])
                simp only [if_pos]
                cases hchild : Entries.get? outer first with
                | none =>
                    -- Nothing was there, so the file itself is put under the
                    -- first name.
                    cases rest with
                    | nil =>
                        cases steps with
                        | nil => exact absurd rfl hsteps
                        | cons more others => rfl
                    | cons second others => simp [at?, hchild] at hentries
                | some child =>
                    simp only [at?, hchild] at hplace
                    refine ih hsteps (fun hbelow => ?_) hplace
                    rw [List.dropLast_cons_of_ne_nil hbelow] at hentries
                    simp only [at?, hchild] at hentries
                    exact ⟨entries, hentries⟩
              · rw [if_neg hstep]

end Node

namespace Disk

def Extends (before after : Disk) : Prop :=
  after.working = before.working ∧
    ∀ location entries, before.root.at? location = some (.directory entries) →
      ∃ kept, after.root.at? location = some (.directory kept) ∧
        ∀ name, (Entries.get? entries name).isSome →
          (Entries.get? kept name).isSome

variable {before after : Disk} {location next : Location} {path : Path}

theorem Extends.step?_eq (hextends : before.Extends after) {part : String}
    (hstep : before.step? location part = some next) :
    after.step? location part = some next := by
  unfold step? at hstep ⊢
  split at hstep
  · next entries hdirectory =>
      obtain ⟨kept, hkept, hnames⟩ := hextends.2 location entries hdirectory
      simp only [hkept]
      split at hstep
      · next hup => rw [if_pos hup, hstep]
      · next hup =>
          split at hstep
          · next hname => rw [if_neg hup, if_pos (hnames part hname), hstep]
          · cases hstep
  · cases hstep

theorem Extends.foldlM_step?_eq (hextends : before.Extends after)
    {parts : List String}
    (hfold : parts.foldlM before.step? location = some next) :
    parts.foldlM after.step? location = some next := by
  induction parts generalizing location with
  | nil => exact hfold
  | cons part parts ih =>
      rw [List.foldlM_cons] at hfold ⊢
      obtain ⟨middle, hstep, hfold⟩ := Option.bind_eq_some_iff.mp hfold
      rw [hextends.step?_eq hstep]
      exact ih hfold

theorem Extends.locate?_eq (hextends : before.Extends after)
    (hlocate : before.locate? path = some location) :
    after.locate? path = some location := by
  unfold locate? start at hlocate ⊢
  rw [hextends.1]
  exact hextends.foldlM_step?_eq hlocate

theorem target?_cases (htarget : before.target? path = some location) :
    before.locate? path = some location ∨
      ∃ parents name parent entries, path.parts = parents ++ [name] ∧
        name ≠ ".." ∧ before.locate? { path with parts := parents } =
          some parent ∧
        before.root.at? parent = some (.directory entries) ∧
          location = parent ++ [name] := by
  unfold target? at htarget
  split at htarget
  · next existing hlocate =>
      cases htarget
      exact .inl hlocate
  · split at htarget
    · cases htarget
    · next name hlast =>
        obtain ⟨parents, hparts⟩ := List.getLast?_eq_some_iff.mp hlast
        have hparents : path.parts.dropLast = parents := by
          rw [hparts, List.dropLast_concat]
        rw [hparents] at htarget
        split at htarget
        · cases htarget
        · next hordinary =>
            have hup : name ≠ ".." := fun heq => hordinary (by simp [heq])
            split at htarget
            · next parent hparent =>
                split at htarget
                · next hdirectory =>
                    cases htarget
                    cases hnode : before.root.at? parent with
                    | none => simp [hnode] at hdirectory
                    | some node =>
                        cases node with
                        | file content =>
                            simp [hnode, Node.isDirectory] at hdirectory
                        | directory entries =>
                            exact .inr ⟨parents, name, parent, entries, hparts,
                              hup, hparent, hnode, rfl⟩
                · cases htarget
            · cases htarget

theorem locate?_of_target?_eq (hextends : before.Extends after)
    (htarget : before.target? path = some location)
    (hsome : (after.root.at? location).isSome) :
    after.locate? path = some location := by
  rcases target?_cases htarget with
    hlocate | ⟨parents, name, parent, entries, hparts, hup, hparent,
      hdirectory, rfl⟩
  · exact hextends.locate?_eq hlocate
  · have hlocate := hextends.locate?_eq hparent
    obtain ⟨kept, hkept, -⟩ := hextends.2 parent entries hdirectory
    rw [Node.at?_append, hkept] at hsome
    have hstep : after.step? parent name = some (parent ++ [name]) := by
      simp only [step?, hkept]
      rw [if_neg hup, if_pos hsome]
    unfold locate? at hlocate ⊢
    rw [hparts, List.foldlM_append]
    refine Option.bind_eq_some_iff.mpr ⟨parent, hlocate, ?_⟩
    rw [List.foldlM_cons, hstep]
    rfl

/-- A disk whose working directory is there. -/
def Stands (disk : Disk) : Prop :=
  ∃ entries, disk.root.at? disk.working = some (.directory entries)

theorem exists_at?_of_step? {part : String}
    (hstep : before.step? location part = some next) :
    ∃ node, before.root.at? next = some node := by
  unfold step? at hstep
  split at hstep
  · next entries hdirectory =>
      split at hstep
      · cases hstep
        by_cases hroot : location = []
        · exact ⟨before.root, by simp [hroot]⟩
        · obtain ⟨outer, houter⟩ := Node.exists_at?_dropLast hdirectory hroot
          exact ⟨_, houter⟩
      · split at hstep
        · next hname =>
            cases hstep
            obtain ⟨node, hnode⟩ := Option.isSome_iff_exists.mp hname
            refine ⟨node, ?_⟩
            rw [Node.at?_append, hdirectory]
            exact hnode
        · cases hstep
  · cases hstep

theorem exists_at?_of_locate? (hstands : before.Stands)
    (hlocate : before.locate? path = some location) :
    ∃ node, before.root.at? location = some node := by
  have hstart : ∃ node, before.root.at? (before.start path) = some node := by
    unfold start
    split
    · obtain ⟨entries, hentries⟩ := hstands
      exact ⟨_, hentries⟩
    · exact ⟨before.root, Node.at?_nil _⟩
  unfold locate? at hlocate
  generalize before.start path = start at hstart hlocate
  generalize path.parts = parts at hlocate
  induction parts generalizing start with
  | nil =>
      cases hlocate
      exact hstart
  | cons part parts ih =>
      rw [List.foldlM_cons] at hlocate
      obtain ⟨middle, hstep, hlocate⟩ := Option.bind_eq_some_iff.mp hlocate
      exact ih middle (exists_at?_of_step? hstep) hlocate

theorem exists_parent_of_target? (hstands : before.Stands)
    (htarget : before.target? path = some location) (hbelow : location ≠ []) :
    ∃ entries, before.root.at? location.dropLast =
      some (.directory entries) := by
  rcases target?_cases htarget with
    hlocate | ⟨parents, name, parent, entries, -, -, -, hdirectory, rfl⟩
  · obtain ⟨node, hnode⟩ := exists_at?_of_locate? hstands hlocate
    exact Node.exists_at?_dropLast hnode hbelow
  · rw [List.dropLast_concat]
    exact ⟨entries, hdirectory⟩

theorem write_eq_some_iff {content : List UInt8} :
    before.write path content = .ok (some after) ↔
      checkName path = .ok () ∧
        ∃ location, before.target? path = some location ∧
          (∀ inner, before.root.at? location ≠ some (.directory inner)) ∧
        { before with root := Node.put (.file content) location before.root } =
          after := by
  have hdirectory : ∀ location,
      ((before.root.at? location).map Node.isDirectory).getD false = true ↔
        ∃ inner, before.root.at? location = some (.directory inner) := by
    intro location
    cases before.root.at? location with
    | none => simp
    | some node => cases node <;> simp [Node.isDirectory]
  unfold write
  rw [bind_eq_ok_iff]
  constructor
  · rintro ⟨⟨⟩, hname, hwrite⟩
    refine ⟨hname, ?_⟩
    split at hwrite
    · cases hwrite
    · next location htarget =>
        split at hwrite
        · cases hwrite
        · next hplace =>
            cases hwrite
            rw [hdirectory] at hplace
            exact ⟨location, htarget, not_exists.mp hplace, rfl⟩
  · rintro ⟨hname, location, htarget, hplace, rfl⟩
    refine ⟨(), hname, ?_⟩
    have hfree := mt (hdirectory location).mp (not_exists.mpr hplace)
    simp only [htarget]
    rw [if_neg hfree]

theorem find?_write {content : List UInt8}
    (htarget : before.target? path = some location)
    (hplace : ∀ inner, before.root.at? location ≠ some (.directory inner)) :
    let written : Disk :=
      { before with root := Node.put (.file content) location before.root }
    written.locate? path = some location ∧
      written.find? path = some (.file content) := by
  intro written
  have hput : written.root.at? location = some (.file content) :=
    Node.at?_put (.file content) location before.root
  have hextends : before.Extends written :=
    ⟨rfl, fun _ _ hother => Node.directory_at?_put _ hother hplace⟩
  have hlocate : written.locate? path = some location :=
    locate?_of_target?_eq hextends htarget
      (Option.isSome_iff_exists.mpr ⟨_, hput⟩)
  refine ⟨hlocate, ?_⟩
  rw [find?, hlocate]
  exact hput

theorem read_write {content : List UInt8}
    (hwrite : before.write path content = .ok (some after)) :
    after.read path = .ok (some content) := by
  obtain ⟨hname, location, htarget, hplace, rfl⟩ := write_eq_some_iff.mp hwrite
  refine bind_eq_ok_iff.mpr ⟨(), hname, ?_⟩
  simp only [(find?_write htarget hplace).2]

/-- Whether everything is as before, except for what the path leads to now. -/
def ChangedOnlyAt (path : Path) (before after : Disk) : Prop :=
  ∃ location, after.locate? path = some location ∧
    after.working = before.working ∧ ∀ other, other ≠ location →
      (after.root.at? other).map Node.content? =
        (before.root.at? other).map Node.content?

theorem changedOnlyAt_write (hstands : before.Stands) {content : List UInt8}
    (hwrite : before.write path content = .ok (some after)) :
    ChangedOnlyAt path before after := by
  obtain ⟨-, location, htarget, hplace, rfl⟩ := write_eq_some_iff.mp hwrite
  exact ⟨location, (find?_write htarget hplace).1, rfl, fun other hother =>
    Node.content?_at?_put content hother
      (exists_parent_of_target? hstands htarget) hplace⟩

end Disk

end Fragments
