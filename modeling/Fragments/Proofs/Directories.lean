import Fragments.Proofs.Disk
import Fragments.Proofs.FileName.Agreement
import Fragments.Proofs.ResourceList.Order
import Mathlib.Data.List.Nodup

namespace Fragments

namespace Node

def seen (tree : Node) (location : Location) : Option (Option (List UInt8)) :=
  (tree.at? location).map content?

def Distinct (tree : Node) : Prop :=
  ∀ location entries, tree.at? location = some (.directory entries) →
    (entries.map Prod.fst).Nodup

/-- The same files and directories, in whatever order they are listed. -/
def Alike (tree other : Node) : Prop :=
  ∀ location, other.seen location = tree.seen location

def EntryAlike (one other : String × Node) : Prop :=
  other.1 = one.1 ∧ one.2.Alike other.2

variable {tree other : Node} {entries others : List (String × Node)}
  {location : Location}

theorem distinct_file (content : List UInt8) : (file content).Distinct := by
  intro location entries hentries
  cases location <;> cases hentries

theorem distinct_directory_iff :
    (directory entries).Distinct ↔
      (entries.map Prod.fst).Nodup ∧ ∀ entry ∈ entries, entry.2.Distinct := by
  constructor
  · intro hdistinct
    have hnodup := hdistinct [] entries rfl
    refine ⟨hnodup, fun (name, node) hmem location inner hinner => ?_⟩
    refine hdistinct (name :: location) inner ?_
    simp only [at?, Entries.get?_eq_some_of_mem hnodup hmem, hinner]
  · rintro ⟨hnodup, hentries⟩ location inner hinner
    cases location with
    | nil =>
        cases hinner
        exact hnodup
    | cons name rest =>
        rw [at?] at hinner
        cases hget : Entries.get? entries name with
        | none => rw [hget] at hinner; cases hinner
        | some node =>
            rw [hget] at hinner
            exact hentries _ (Entries.mem_of_get?_eq_some hget) rest
              inner hinner

theorem Distinct.perm (hdistinct : (directory entries).Distinct)
    (hperm : entries.Perm others) :
    (directory others).Distinct := by
  obtain ⟨hnodup, hentries⟩ := distinct_directory_iff.mp hdistinct
  exact distinct_directory_iff.mpr ⟨(hperm.map Prod.fst).nodup_iff.mp hnodup,
    fun entry hmem => hentries entry (hperm.mem_iff.mpr hmem)⟩

theorem seen_directory_cons (entries : List (String × Node)) (name : String)
    (rest : Location) :
    (directory entries).seen (name :: rest) =
      (Entries.get? entries name).bind fun node => node.seen rest := by
  rw [seen, at?]
  cases Entries.get? entries name <;> rfl

theorem Alike.trans {third : Node} (hfirst : tree.Alike other)
    (hsecond : other.Alike third) :
    tree.Alike third :=
  fun location => (hsecond location).trans (hfirst location)

theorem alike_of_perm (hnodup : (entries.map Prod.fst).Nodup)
    (hperm : entries.Perm others) :
    (directory entries).Alike (directory others) := by
  intro location
  cases location with
  | nil => rfl
  | cons name rest =>
      rw [seen_directory_cons, seen_directory_cons,
        Entries.get?_eq_of_perm hnodup hperm]

theorem alike_of_forall₂
    (hsame : List.Forall₂ EntryAlike entries others) :
    (directory entries).Alike (directory others) := by
  intro location
  cases location with
  | nil => rfl
  | cons name rest =>
      rw [seen_directory_cons, seen_directory_cons]
      induction hsame with
      | nil => rfl
      | @cons one other entries others hboth _ ih =>
          obtain ⟨first, node⟩ := one
          obtain ⟨second, twin⟩ := other
          obtain ⟨rfl, halike⟩ := hboth
          by_cases hname : second = name
          · subst hname
            rw [Entries.get?_cons_self, Entries.get?_cons_self]
            exact halike rest
          · rw [Entries.get?_cons_of_ne hname, Entries.get?_cons_of_ne hname]
            exact ih

theorem alike_directory {middle : List (String × Node)}
    (hsame : List.Forall₂ EntryAlike entries middle)
    (hnodup : (middle.map Prod.fst).Nodup) (hperm : middle.Perm others) :
    (directory entries).Alike (directory others) :=
  (alike_of_forall₂ hsame).trans (alike_of_perm hnodup hperm)

theorem seen_eq_directory_iff :
    tree.seen location = some none ↔
      ∃ entries, tree.at? location = some (.directory entries) := by
  rw [seen]
  cases tree.at? location with
  | none => simp
  | some node => cases node <;> simp [content?]

theorem mem_iff_seen (hdistinct : tree.Distinct)
    (hentries : tree.at? location = some (.directory entries)) {name : String}
    {content : List UInt8} :
    (name, file content) ∈ entries ↔
      tree.seen (location ++ [name]) = some (some content) := by
  rw [seen, at?_append, hentries]
  constructor
  · intro hmem
    simp only [Entries.get?_eq_some_of_mem
      (hdistinct location entries hentries) hmem]
    rfl
  · intro hseen
    obtain ⟨node, hget, hcontent⟩ := Option.map_eq_some_iff.mp hseen
    cases node with
    | file found =>
        cases hcontent
        exact Entries.mem_of_get?_eq_some hget
    | directory inner => cases hcontent

end Node

namespace Disk

/-- The same disk, whose directories may list their entries in another order. -/
structure Relisted (before after : Disk) : Prop where
  working : after.working = before.working
  root : before.root.Alike after.root

variable {before after : Disk} {path : Path}

theorem step?_eq_seen (disk : Disk) (location : Location) (part : String) :
    disk.step? location part =
      if disk.root.seen location = some none then
        if part = ".." then some location.dropLast
        else if (disk.root.seen (location ++ [part])).isSome then
          some (location ++ [part])
        else none
      else none := by
  by_cases hdirectory :
    ∃ entries, disk.root.at? location = some (.directory entries)
  · rw [if_pos (Node.seen_eq_directory_iff.mpr hdirectory)]
    obtain ⟨entries, hentries⟩ := hdirectory
    simp only [step?, hentries, Node.seen, Node.at?_append, Option.isSome_map]
  · rw [if_neg (mt Node.seen_eq_directory_iff.mp hdirectory), step?]
    split
    · next entries hentries => exact absurd ⟨entries, hentries⟩ hdirectory
    · rfl

theorem Relisted.locate?_eq (hrelisted : before.Relisted after) (path : Path) :
    after.locate? path = before.locate? path := by
  have hstep : after.step? = before.step? := by
    funext location part
    simp only [step?_eq_seen, hrelisted.root location,
      hrelisted.root (location ++ [part])]
  rw [locate?, locate?, start, start, hrelisted.working, hstep]

theorem Relisted.content?_find? (hrelisted : before.Relisted after)
    (path : Path) :
    (after.find? path).map Node.content? =
      (before.find? path).map Node.content? := by
  rw [find?, find?, hrelisted.locate?_eq path]
  cases before.locate? path with
  | none => rfl
  | some location => exact hrelisted.root location

theorem isDirectory_iff_content? {disk : Disk} :
    disk.isDirectory path = true ↔
      (disk.find? path).map Node.content? = some none := by
  rw [isDirectory]
  cases disk.find? path with
  | none => simp
  | some node => cases node <;> simp [Node.isDirectory, Node.content?]

theorem Relisted.isDirectory_eq (hrelisted : before.Relisted after)
    (path : Path) :
    after.isDirectory path = before.isDirectory path := by
  rw [Bool.eq_iff_iff, isDirectory_iff_content?, isDirectory_iff_content?,
    hrelisted.content?_find? path]

theorem read_eq_content? (disk : Disk) (path : Path) :
    disk.read path = (checkName path).map fun _ =>
      ((disk.find? path).map Node.content?).join := by
  rw [read]
  cases checkName path with
  | error fault => rfl
  | ok _ =>
      cases disk.find? path with
      | none => rfl
      | some node => cases node <;> rfl

theorem Relisted.read_eq (hrelisted : before.Relisted after) (path : Path) :
    after.read path = before.read path := by
  rw [read_eq_content?, read_eq_content?, hrelisted.content?_find? path]

theorem exists_location_of_isDirectory {disk : Disk}
    (hdirectory : disk.isDirectory path = true) :
    ∃ location, disk.locate? path = some location ∧
      disk.root.at? location = some (.directory (disk.list path)) := by
  rw [isDirectory] at hdirectory
  cases hfind : disk.find? path with
  | none => rw [hfind] at hdirectory; cases hdirectory
  | some node =>
      cases node with
      | file content => rw [hfind] at hdirectory; cases hdirectory
      | directory entries =>
          have hlist : disk.list path = entries := by rw [list, hfind]
          rw [hlist]
          rw [find?] at hfind
          split at hfind
          · next location hlocate => exact ⟨location, hlocate, hfind⟩
          · cases hfind

theorem Relisted.mem_list_iff (hrelisted : before.Relisted after)
    (hbefore : before.root.Distinct) (hafter : after.root.Distinct)
    (hdirectory : before.isDirectory path = true) {name : String}
    {content : List UInt8} :
    (name, Node.file content) ∈ after.list path ↔
      (name, Node.file content) ∈ before.list path := by
  obtain ⟨location, hlocate, hentries⟩ :=
    exists_location_of_isDirectory hdirectory
  obtain ⟨own, hown, hothers⟩ :=
    exists_location_of_isDirectory
      ((hrelisted.isDirectory_eq path).trans hdirectory)
  obtain rfl : location = own :=
    Option.some.inj
      (hlocate.symm.trans ((hrelisted.locate?_eq path).symm.trans hown))
  rw [Node.mem_iff_seen hafter hothers, Node.mem_iff_seen hbefore hentries,
    hrelisted.root]

end Disk

namespace FragmentFile

variable {disk after : Disk} {path : Path} {name : String}

theorem collectedNames_sublist (disk : Disk) (path : Path) :
    (collectedNames disk path).Sublist ((disk.list path).map Prod.fst) := by
  rw [collectedNames]
  induction disk.list path with
  | nil => exact List.Sublist.slnil
  | cons entry rest ih =>
      rw [List.filterMap_cons, List.map_cons]
      split
      · exact ih.cons entry.1
      · next heq =>
          cases (Option.ite_none_right_eq_some.mp heq).2
          exact ih.cons_cons entry.1

theorem nodup_collectedNames (hdistinct : disk.root.Distinct)
    (hdirectory : disk.isDirectory path = true) :
    (collectedNames disk path).Nodup := by
  obtain ⟨location, -, hentries⟩ :=
    Disk.exists_location_of_isDirectory hdirectory
  exact (hdistinct location _ hentries).sublist
    (collectedNames_sublist disk path)

theorem collectedNames_perm (hrelisted : disk.Relisted after)
    (hdistinct : disk.root.Distinct) (hafter : after.root.Distinct)
    (hdirectory : disk.isDirectory path = true) :
    (collectedNames after path).Perm (collectedNames disk path) := by
  have hown := (hrelisted.isDirectory_eq path).trans hdirectory
  refine (List.perm_ext_iff_of_nodup (nodup_collectedNames hafter hown)
    (nodup_collectedNames hdistinct hdirectory)).mpr fun name => ?_
  simp only [mem_collectedNames_iff,
    hrelisted.mem_list_iff hdistinct hafter hdirectory]

theorem collect_append (disk : Disk) (xs ys : List Path) :
    collect disk (xs ++ ys) = collect disk xs ++ collect disk ys :=
  List.flatMap_append

theorem collect_of_relisted (hrelisted : disk.Relisted after)
    (hdistinct : disk.root.Distinct) (hafter : after.root.Distinct)
    (paths : List Path) :
    collect after paths = collect disk paths := by
  refine List.flatMap_congr fun path _ => ?_
  rw [hrelisted.isDirectory_eq path]
  split
  · next hdirectory =>
      rw [ofDirectory_eq, ofDirectory_eq, Text.mergeSort_eq_of_perm
        (collectedNames_perm hrelisted hdistinct hafter hdirectory)]
  · rfl

theorem isCollected_iff_suffix (path : Path) (name : String) :
    isCollected name = true ↔
      Text.lower (path.child name).suffix ∈ [".yaml", ".yml", ".json"] := by
  rw [Path.suffix, Path.name_child, isCollected, List.contains_iff_mem]
  rfl

theorem collect_directory (hdistinct : disk.root.Distinct)
    (hdirectory : disk.isDirectory path = true) :
    ∃ names : List String, collect disk [path] = names.map path.child ∧
      names.Pairwise (· < ·) ∧ (collect disk [path]).Nodup ∧
      ∀ name, name ∈ names ↔
        (∃ content, (name, Node.file content) ∈ disk.list path) ∧
        Text.lower (path.child name).suffix ∈ [".yaml", ".yml", ".json"] := by
  have hnames := nodup_collectedNames hdistinct hdirectory
  have hsorted := Text.pairwise_lt_mergeSort hnames
  have hcollect : collect disk [path] =
      ((collectedNames disk path).mergeSort Text.notAfter).map path.child := by
    rw [collect_singleton, if_pos hdirectory, ofDirectory_eq]
  refine ⟨_, hcollect, hsorted, ?_, fun name => ?_⟩
  · rw [hcollect]
    refine List.Nodup.map (fun _ _ heq => Path.child_inj.mp heq) ?_
    exact (List.mergeSort_perm _ _).nodup_iff.mpr hnames
  · rw [List.mem_mergeSort, mem_collectedNames_iff, isCollected_iff_suffix path]

/-- Directories are expanded one after the other, each to its own fragment files
in strict order of their names, and no other path is changed. Nothing depends on
the order in which directories list their entries, nor does a build of the
files. -/
theorem collect_expands {disk : Disk} (hdistinct : disk.root.Distinct) :
    (∀ xs ys, collect disk (xs ++ ys) = collect disk xs ++ collect disk ys) ∧
      (∀ path, disk.isDirectory path = false → collect disk [path] = [path]) ∧
      (∀ path, disk.isDirectory path = true → ∃ names : List String,
        collect disk [path] = names.map path.child ∧ names.Pairwise (· < ·) ∧
          (collect disk [path]).Nodup ∧
          ∀ name, name ∈ names ↔
            (∃ content, (name, Node.file content) ∈ disk.list path) ∧
            Text.lower (path.child name).suffix ∈ [".yaml", ".yml", ".json"]) ∧
      ∀ after : Disk, disk.Relisted after → after.root.Distinct → ∀ paths,
        collect after paths = collect disk paths ∧
          ∀ setting : ResourceList.Setting, setting.disk = disk →
            ResourceList.build { setting with disk := after }
                (collect after paths) =
              ResourceList.build setting (collect disk paths) := by
  refine ⟨collect_append disk, fun path hpath => ?_, fun path =>
    collect_directory hdistinct, fun after hrelisted hafter paths => ⟨?_, ?_⟩⟩
  · rw [collect_singleton, if_neg (by simp [hpath])]
  · exact collect_of_relisted hrelisted hdistinct hafter paths
  · rintro setting rfl
    rw [collect_of_relisted hrelisted hdistinct hafter]
    exact ResourceList.build_congr fun path _ _ => hrelisted.read_eq path

def fewFiles : List (String × Node) :=
  [("b-svc.yaml", .file []),
    ("sub.yaml", .directory [("c-pod.yaml", .file [])]),
    ("notes.txt", .file []), ("a-cm.YML", .file [])]

theorem distinct_fewFiles : (Node.directory fewFiles).Distinct := by
  have hsub : (Node.directory [("c-pod.yaml", .file [])]).Distinct :=
    Node.distinct_directory_iff.mpr
      ⟨List.nodup_singleton _,
        List.forall_mem_singleton.mpr (Node.distinct_file [])⟩
  refine Node.distinct_directory_iff.mpr ⟨by decide, ?_⟩
  simpa [fewFiles, Node.distinct_file] using hsub

/-- Of the directory two names are collected, and the same when it is listed the
other way round. -/
theorem collect_expands_fewFiles :
    let disk : Disk :=
      ⟨.directory [("d", .directory fewFiles), ("e.yaml", .file [])], []⟩
    let after : Disk :=
      ⟨.directory [("e.yaml", .file []), ("d", .directory fewFiles.reverse)],
        []⟩
    (disk.root.Distinct ∧ disk.isDirectory ⟨"", ["d"]⟩ = true ∧
      disk.Relisted after ∧ after.root.Distinct) ∧
      collect after [⟨"", ["d"]⟩] = collect disk [⟨"", ["d"]⟩] ∧
      ∃ names : List String, collect disk [⟨"", ["d"]⟩] = names.map
        (Path.child ⟨"", ["d"]⟩) ∧
        names.Pairwise (· < ·) ∧ "a-cm.YML" ∈ names ∧ "b-svc.yaml" ∈ names ∧
        "notes.txt" ∉ names ∧ "sub.yaml" ∉ names := by
  intro disk after
  have hreversed : fewFiles.Perm fewFiles.reverse :=
    (List.reverse_perm fewFiles).symm
  have hdistinct : disk.root.Distinct := by
    refine Node.distinct_directory_iff.mpr ⟨by decide, ?_⟩
    simp [distinct_fewFiles, Node.distinct_file]
  have hafter : after.root.Distinct := by
    refine Node.distinct_directory_iff.mpr ⟨by decide, ?_⟩
    simp [distinct_fewFiles.perm hreversed, Node.distinct_file]
  have hrelisted : disk.Relisted after := by
    have hsame : List.Forall₂ Node.EntryAlike
        [("d", .directory fewFiles), ("e.yaml", .file [])]
        [("d", .directory fewFiles.reverse), ("e.yaml", .file [])] :=
      .cons ⟨rfl, Node.alike_of_perm (by decide) hreversed⟩
        (.cons ⟨rfl, fun _ => rfl⟩ .nil)
    exact ⟨rfl, Node.alike_directory hsame (by decide) (List.Perm.swap _ _ [])⟩
  obtain ⟨-, -, hdirectory, hsame⟩ := collect_expands hdistinct
  obtain ⟨names, hcollect, hsorted, -, hnames⟩ := hdirectory ⟨"", ["d"]⟩ rfl
  have hlist : disk.list ⟨"", ["d"]⟩ = fewFiles := rfl
  refine ⟨⟨hdistinct, rfl, hrelisted, hafter⟩,
    (hsame after hrelisted hafter _).1, names, hcollect, hsorted, ?_⟩
  simp only [hnames, hlist]
  refine ⟨⟨⟨[], by simp [fewFiles]⟩, by decide +kernel⟩,
    ⟨⟨[], by simp [fewFiles]⟩, by decide +kernel⟩, fun ⟨_, hsuffix⟩ =>
      ?_, fun ⟨⟨content, hmem⟩, _⟩ => ?_⟩
  · revert hsuffix
    decide +kernel
  · simp [fewFiles] at hmem

end FragmentFile

end Fragments
