import Fragments.Proofs.Data.Outcome
import Fragments.ResourceList

namespace Fragments

namespace FragmentFile

theorem read_congr {disk other : Disk} {path : Path}
    (hread : other.read path = disk.read path) (extension : Option String) :
    read other path extension = read disk path extension := by
  rw [read, read, readText, readText, hread]

end FragmentFile

namespace FileName

theorem isExcluded_iff (name : String) :
    isExcluded name = true ↔
      ".helm.yaml".toList <:+ (Text.lower name).toList ∨
        ".helm.yml".toList <:+ (Text.lower name).toList := by
  simp only [isExcluded, excludedEndings, List.any_cons, List.any_nil,
    Bool.or_false, Bool.or_eq_true, List.isSuffixOf_iff_suffix]

end FileName

namespace ResourceList

variable {setting : Setting} {paths : List Path} {list : ResourceList}
  {problem : Problem}

/-- The paths that a build reads. -/
def kept (paths : List Path) : List Path :=
  paths.filter fun path => !FileName.isExcluded path.name

theorem kept_append (first second : List Path) :
    kept (first ++ second) = kept first ++ kept second :=
  List.filter_append first second

theorem kept_cons_of_excluded {path : Path}
    (hexcluded : FileName.isExcluded path.name = true) (paths : List Path) :
    kept (path :: paths) = kept paths :=
  List.filter_cons_of_neg (by simp [hexcluded])

theorem kept_cons {path : Path} (htaken : FileName.isExcluded path.name = false)
    (paths : List Path) : kept (path :: paths) = path :: kept paths :=
  List.filter_cons_of_pos (by simp [htaken])

theorem readAll_eq_mapM (setting : Setting) (paths : List Path) :
    readAll setting paths = (kept paths).mapM (readResource setting) := by
  induction paths with
  | nil => rfl
  | cons path rest ih =>
      rw [readAll, ih]
      cases hexcluded : FileName.isExcluded path.name with
      | true => rw [kept_cons_of_excluded hexcluded, if_pos rfl]
      | false =>
          rw [kept_cons hexcluded, List.mapM_cons, if_neg (by decide)]
          rfl

theorem build_eq (setting : Setting) (paths : List Path) :
    build setting paths =
      ((kept paths).mapM (readResource setting)).map ofItems := by
  rw [build, readAll_eq_mapM]

theorem build_eq_ok_iff :
    build setting paths = .ok list ↔
      list = ofItems list.items ∧
        List.Forall₂ (fun path item => readResource setting path = .ok item)
        (kept paths)
          list.items := by
  rw [build_eq, map_eq_ok_iff]
  simp only [mapM_eq_ok_iff]
  constructor
  · rintro ⟨items, hitems, rfl⟩
    exact ⟨rfl, hitems⟩
  · rintro ⟨hlist, hitems⟩
    exact ⟨list.items, hitems, hlist.symm⟩

theorem build_eq_error_iff :
    build setting paths = .error problem ↔
      ∃ before path after earlier, paths = before ++ path :: after ∧
        FileName.isExcluded path.name = false ∧
          build setting before = .ok earlier ∧
        readResource setting path = .error problem := by
  have herror : build setting paths = .error problem ↔
      (kept paths).mapM (readResource setting) = .error problem := by
    rw [build_eq]
    cases (kept paths).mapM (readResource setting) <;> simp [Except.map]
  rw [herror, mapM_eq_error_iff]
  constructor
  · rintro ⟨early, path, late, results, hkept, hearly, hpath⟩
    obtain ⟨before, others, rfl, hbefore, hothers⟩ :=
      List.filter_eq_append_iff.mp hkept
    obtain ⟨skipped, after, rfl, hskipped, htaken, -⟩ :=
      List.filter_eq_cons_iff.mp hothers
    have hsame : kept (before ++ skipped) = early := by
      rw [kept_append, kept, hbefore, kept, List.filter_eq_nil_iff.mpr hskipped,
        List.append_nil]
    refine ⟨before ++ skipped, path, after, ofItems results, by
      rw [List.append_assoc], by simpa using htaken, ?_, hpath⟩
    rw [build_eq, hsame, hearly]
    rfl
  · rintro ⟨before, path, after, earlier, rfl, htaken, hbefore, hpath⟩
    rw [build_eq, map_eq_ok_iff] at hbefore
    obtain ⟨results, hresults, -⟩ := hbefore
    exact ⟨kept before, path, kept after, results, by
      rw [kept_append, kept_cons htaken], hresults, hpath⟩

theorem build_append (setting : Setting) (first second : List Path) :
    build setting (first ++ second) =
      (do
        let early ← build setting first
        let late ← build setting second
        .ok (ofItems (early.items ++ late.items))) := by
  simp only [build_eq, kept_append, List.mapM_append]
  cases (kept first).mapM (readResource setting) with
  | error problem => rfl
  | ok early => cases (kept second).mapM (readResource setting) <;> rfl

theorem readResource_congr {path : Path} {other : Disk}
    (hread : other.read path = setting.disk.read path) :
    readResource { setting with disk := other } path =
      readResource setting path := by
  rw [readResource, readResource]
  simp only [FragmentFile.read_congr hread]

theorem build_congr {other : Disk}
    (hread : ∀ path ∈ paths, FileName.isExcluded path.name = false →
      other.read path = setting.disk.read path) :
    build { setting with disk := other } paths = build setting paths := by
  have hall : readAll { setting with disk := other } paths =
      readAll setting paths := by
    induction paths with
    | nil => rfl
    | cons path rest ih =>
        have hrest := ih fun later hmem =>
          hread later (List.mem_cons_of_mem path hmem)
        rw [readAll, readAll, hrest]
        cases hexcluded : FileName.isExcluded path.name with
        | true => rw [if_pos rfl, if_pos rfl]
        | false =>
            rw [readResource_congr (hread path List.mem_cons_self hexcluded)]
  rw [build, build, hall]

/-- A file makes the same item on two disks that hold the same there, whatever
else they hold. -/
theorem getElem?_items_congr {other : Disk} {changed : ResourceList}
    {place : Nat} {path : Path} (hbuild : build setting paths = .ok list)
    (hother : build { setting with disk := other } paths = .ok changed)
    (hplace : (kept paths)[place]? = some path)
    (hread : other.read path = setting.disk.read path) :
    changed.items[place]? = list.items[place]? := by
  obtain ⟨-, hitems⟩ := build_eq_ok_iff.mp hbuild
  obtain ⟨-, hchanged⟩ := build_eq_ok_iff.mp hother
  obtain ⟨hbound, hpath⟩ := List.getElem?_eq_some_iff.mp hplace
  have hitem := (List.forall₂_iff_get.mp hitems).2 place hbound
    (hitems.length_eq ▸ hbound)
  have hnew := (List.forall₂_iff_get.mp hchanged).2 place hbound
    (hchanged.length_eq ▸ hbound)
  simp only [List.get_eq_getElem, hpath] at hitem hnew
  rw [readResource_congr hread, hitem] at hnew
  rw [List.getElem?_eq_getElem (hchanged.length_eq ▸ hbound),
    List.getElem?_eq_getElem (hitems.length_eq ▸ hbound), Except.ok.inj hnew]

/-- A build of two lists of files is the build of the first followed by that of
the second, and the first problem of either ends it. There is one item for every
file that is not excluded, in order; an excluded one counts for nothing wherever
it stands, and no file has a part in the item of another. -/
theorem build_homomorphism (setting : Setting) (xs ys : List Path) :
    build setting (xs ++ ys) =
        (do
          let early ← build setting xs
          let late ← build setting ys
          .ok (ofItems (early.items ++ late.items))) ∧
      (∀ list, build setting xs = .ok list ↔
        list = ofItems list.items ∧
          List.Forall₂ (fun path item => readResource setting path = .ok item)
            (xs.filter fun path => !FileName.isExcluded path.name) list.items) ∧
      (∀ problem, build setting xs = .error problem ↔
        ∃ before path after earlier, xs = before ++ path :: after ∧
          FileName.isExcluded path.name = false ∧
          build setting before = .ok earlier ∧
          readResource setting path = .error problem) ∧
      (∀ path, ".helm.yaml".toList <:+ (Text.lower path.name).toList ∨
          ".helm.yml".toList <:+ (Text.lower path.name).toList →
        build setting (xs ++ path :: ys) = build setting (xs ++ ys)) ∧
      (∀ other list changed, build setting xs = .ok list →
        build { setting with disk := other } xs = .ok changed →
        ∀ (place : Nat) (path : Path),
          (xs.filter fun path => !FileName.isExcluded path.name)[place]? =
            some path →
          other.read path = setting.disk.read path →
          changed.items[place]? = list.items[place]?) := by
  refine ⟨build_append setting xs ys, fun _ => build_eq_ok_iff, fun _ =>
    build_eq_error_iff, fun path hname =>
      ?_, fun other list changed hbuild hother place path hplace hread =>
        getElem?_items_congr hbuild hother hplace hread⟩
  have hexcluded := (FileName.isExcluded_iff path.name).mpr hname
  rw [build_eq, build_eq, kept_append, kept_append,
    kept_cons_of_excluded hexcluded]

end ResourceList

end Fragments
