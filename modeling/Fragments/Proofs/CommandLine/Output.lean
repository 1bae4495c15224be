import Fragments.CommandLine.Program
import Fragments.Proofs.Disk
import Fragments.Proofs.Markup

namespace Fragments

namespace Ending

theorem status_complain (message : String) (hints : List String) :
    (complain message hints).status = 1 := by
  unfold complain
  dsimp only
  split <;> rfl

theorem status_ofProblem (problem : Problem) :
    (ofProblem problem).status = 1 := by
  cases problem with
  | failure failure => exact status_complain _ _
  | fault fault => rfl
  | rejected complaints => rfl

end Ending

theorem orEnd_fails (outcome : Except Problem α) :
    FailsOnly (fun ending => ending.status = 1) (orEnd outcome) := by
  cases outcome with
  | ok value => exact .ok value
  | error problem => exact .error (Ending.status_ofProblem problem)

namespace Program

variable {world : World} {request : BuildRequest} {list : ResourceList}
  {text : String} {path : Path} {arguments : List String} {after : Disk}

theorem makeClient_fails (world : World) (mappingsFile : Option Path) :
    FailsOnly (fun ending => ending.status = 1)
    (makeClient world mappingsFile) := by
  refine .bind (orEnd_fails _) fun settings _ => .bind (orEnd_fails _)
    fun client _ => ?_
  cases mappingsFile with
  | none => exact .ok client
  | some path => exact .bind (orEnd_fails _) fun registry _ => .ok _

theorem buildText_fails (world : World) (request : BuildRequest) :
    FailsOnly (fun ending => ending.status = 1) (buildText world request) := by
  have hformat :
      FailsOnly (fun ending => ending.status = 1)
        (checkFormat request.format) := by
    unfold checkFormat
    split
    · exact .ok ()
    · exact .ite (.ok ()) (.error (Ending.status_complain _ _))
  exact .bind hformat fun _ _ => .bind (makeClient_fails _ _) fun _ _ =>
    .bind (orEnd_fails _) fun _ _ => .bind (orEnd_fails _) fun _ _ => .ok _

/-- A mark in the path, or in a cell of the table about a list, cannot be
printed. -/
def PrintsStray (list : ResourceList) (path : Path) : Prop :=
  (∃ fault, Markup.Strays path.text fault) ∨
    ∃ item ∈ list.items,
      ∃ cell ∈ [item.kind, item.name.getD "", item.apiVersion.getD ""], ∃ fault,
        Markup.Strays cell fault

theorem openAfter_marksOf_writtenLine (count : Nat) (place : String) :
    Markup.openAfter (Markup.marksOf (writtenLine count place).toList) =
      Markup.openAfter (Markup.marksOf place.toList) := by
  have hchars : (writtenLine count place).toList =
      '[' :: 'g' :: "reen".toList ++
      ']' :: ("✓".toList ++ ('[' :: '/' :: "green".toList ++
        ']' ::
        ((" Wrote ".toList ++
          (Nat.toDigits 10 count ++ " resources to: ".toList)) ++
          place.toList))) := by
    show ("[green]✓[/green] Wrote " ++ toString count ++ " resources to: " ++
        place).toList = _
    simp
  have hplain :
      ∀ c ∈ " Wrote ".toList ++
      (Nat.toDigits 10 count ++ " resources to: ".toList), c ≠ '[' ∧
        c ≠ '\\' := by
    have hdigits : ∀ c ∈ Nat.toDigits 10 count, c ≠ '[' ∧ c ≠ '\\' := by
      intro c hmem
      have hdigit := Nat.isDigit_of_mem_toDigits (by decide) (by decide) hmem
      constructor <;> (rintro rfl; cases hdigit)
    exact List.forall_mem_append.mpr
      ⟨by decide, List.forall_mem_append.mpr ⟨hdigits, by decide⟩⟩
  have hmarks : Markup.marksOf (writtenLine count place).toList =
      "green".toList :: "/green".toList :: Markup.marksOf place.toList := by
    rw [hchars, Markup.marksOf_mark (by decide) (by decide),
      Markup.marksOf_append_of_plain (by decide),
      Markup.marksOf_mark (by decide) (by decide),
      Markup.marksOf_append_of_plain hplain]
    rfl
  have hstart : Markup.applyMark "green".toList [] = .ok [⟨"green", none⟩] := by
    decide +kernel
  have hfinish : Markup.applyMark "/green".toList [⟨"green", none⟩] =
      .ok [] := by
    decide +kernel
  rw [hmarks]
  simp only [Markup.openAfter, List.foldlM_cons, hstart, hfinish, bind,
    Except.bind]

theorem strays_writtenLine_iff {count : Nat} {place : String} {fault : Fault} :
    Markup.Strays (writtenLine count place) fault ↔
      Markup.Strays place fault := by
  have hopened := openAfter_marksOf_writtenLine count place
  have hstops {text : String} (hstrays : Markup.Strays text fault) :=
    (Markup.openAfter_marksOf_eq_error_iff hstrays.isBeyond).mpr hstrays
  constructor
  · intro hstrays
    exact (Markup.openAfter_marksOf_eq_error_iff hstrays.isBeyond).mp
      (hopened.symm.trans (hstops hstrays))
  · intro hstrays
    exact (Markup.openAfter_marksOf_eq_error_iff hstrays.isBeyond).mp
      (hopened.trans (hstops hstrays))

theorem strays_resourcesTable_iff {list : ResourceList} :
    (resourcesTable list).Strays ↔ ∃ item ∈ list.items,
      ∃ cell ∈ [item.kind, item.name.getD "", item.apiVersion.getD ""],
        ∃ fault, Markup.Strays cell fault := by
  constructor
  · rintro ⟨row, hrow, cell, hcell, hstrays⟩
    obtain ⟨item, hitem, rfl⟩ := List.mem_map.mp hrow
    exact ⟨item, hitem, cell, hcell, hstrays⟩
  · rintro ⟨item, hitem, cell, hcell, hstrays⟩
    exact ⟨_, List.mem_map_of_mem hitem, cell, hcell, hstrays⟩

theorem isBeyond_of_crashed {ending : Ending} {fault : Fault}
    (hwithin : ∀ limit, ending ≠ .crashed (.fault (.beyond limit)))
    (hending : ending = .crashed (.fault fault)) : fault.isBeyond = false := by
  cases fault with
  | beyond limit => exact absurd hending (hwithin limit)
  | _ => rfl

theorem summary_ending
    (hwithin : ∀ limit, (summary list path).2 ≠ .crashed
      (.fault (.beyond limit))) :
    ((summary list path).2 = .done ∧ ¬PrintsStray list path) ∨
      ∃ fault, (summary list path).2 = .crashed (.fault fault) ∧
        PrintsStray list path := by
  rw [PrintsStray, ← strays_resourcesTable_iff]
  cases hline : Markup.printLine (writtenLine list.items.length path.text) with
  | error fault =>
      have hending : (summary list path).2 = .crashed (.fault fault) := by
        simp only [summary, hline]
      have hstrays := (Markup.printLine_eq_error_iff
        (isBeyond_of_crashed hwithin hending)).mp hline
      exact .inr ⟨fault, hending,
        .inl ⟨fault, strays_writtenLine_iff.mp hstrays⟩⟩
  | ok line =>
      have hplain : ¬∃ fault, Markup.Strays path.text fault := by
        rintro ⟨fault, hstrays⟩
        have hwritten :
            Markup.Strays (writtenLine list.items.length path.text) fault :=
          strays_writtenLine_iff.mpr hstrays
        cases hline.symm.trans
          ((Markup.printLine_eq_error_iff hstrays.isBeyond).mpr hwritten)
      by_cases hempty : list.items.isEmpty = true
      · have hending : (summary list path).2 = .done := by
          simp only [summary, hline, if_pos hempty]
        refine .inl ⟨hending, not_or.mpr ⟨hplain, ?_⟩⟩
        rintro ⟨row, hrow, -⟩
        rw [resourcesTable, List.isEmpty_iff.mp hempty] at hrow
        cases hrow
      · cases hdrawn : drawn (resourcesTable list) with
        | ok drawing =>
            have hending : (summary list path).2 = .done := by
              simp only [summary, hline, if_neg hempty, hdrawn]
            obtain ⟨rendered, hrendered, -⟩ := map_eq_ok_iff.mp hdrawn
            exact .inl ⟨hending,
              not_or.mpr ⟨hplain, Table.not_strays_of_rendered hrendered⟩⟩
        | error fault =>
            have hending : (summary list path).2 = .crashed (.fault fault) := by
              simp only [summary, hline, if_neg hempty, hdrawn]
            exact .inr ⟨fault, hending, .inr (Table.strays_of_rendered
              (isBeyond_of_crashed hwithin hending)
              (map_eq_error_iff.mp hdrawn))⟩

/-- What a run builds and comes to write into the file at a path. -/
structure Writes (world : World) (arguments : List String) (path : Path)
    (list : ResourceList) (text : String) : Prop where
  built : ∃ request, readRequest world arguments = .ok (.build request) ∧
    request.output = some path ∧ buildText world request = .ok (list, text)
  written : ∃ after, world.disk.write path (Utf8.encode text.toList) = .ok
    (some after)

theorem run_of_writes (hwrites : Writes world arguments path list text) :
    world.disk.write path (Utf8.encode text.toList) =
      .ok (some (run world arguments).disk) ∧
      (run world arguments).ending = (summary list path).2 := by
  obtain ⟨⟨request, hrequest, houtput, hbuilt⟩, after, hwritten⟩ := hwrites
  have hrun : run world arguments =
      ⟨(summary list path).1, (summary list path).2, after, some path⟩ := by
    simp only [run, hrequest, perform, runBuild, hbuilt, houtput,
      save, hwritten]
  rw [hrun]
  exact ⟨hwritten, rfl⟩

theorem save_of_unwritten {disk : Disk} (list : ResourceList)
    (hunwritten : ∀ after, disk.write path (Utf8.encode text.toList) ≠ .ok
      (some after)) :
    (save disk list text path).disk = disk ∧
      (save disk list text path).ending.status = 1 := by
  unfold save
  split
  · exact ⟨rfl, rfl⟩
  · exact ⟨rfl, Ending.status_complain _ _⟩
  · next after hwritten => exact absurd hwritten (hunwritten after)

theorem printing_disk (disk : Disk) (printed : Except Ending String) :
    (printing disk printed).disk = disk := by
  cases printed <;> rfl

theorem run_of_never_writes
    (hnever : ∀ path list text, ¬Writes world arguments path list text) :
    (run world arguments).disk = world.disk ∧
      ∀ request, readRequest world arguments = .ok (.build request) →
        request.output ≠ none → (run world arguments).ending.status = 1 := by
  cases hrequest : readRequest world arguments with
  | error ending =>
      refine ⟨?_, fun request heq => by cases heq⟩
      unfold run
      rw [hrequest]
      cases ending <;> rfl
  | ok asked =>
      have hrun : run world arguments = perform world asked := by
        rw [run, hrequest]
      rw [hrun]
      cases asked with
      | build request =>
          simp only [perform, runBuild]
          cases hbuilt : buildText world request with
          | error ending =>
              exact ⟨rfl, fun _ _ _ =>
                buildText_fails world request ending hbuilt⟩
          | ok built =>
              cases houtput : request.output with
              | none =>
                  refine ⟨rfl, fun other heq hsome => ?_⟩
                  cases heq
                  exact absurd houtput hsome
              | some path =>
                  have hunwritten : ∀ after,
                      world.disk.write path (Utf8.encode built.2.toList) ≠
                        .ok (some after) :=
                    fun after hwritten => hnever path built.1 built.2
                      ⟨⟨request, hrequest, houtput, hbuilt⟩, after, hwritten⟩
                  obtain ⟨hdisk, hstatus⟩ :=
                    save_of_unwritten built.1 hunwritten
                  exact ⟨hdisk, fun _ _ _ => hstatus⟩
      | mappings mappingsFile asJson =>
          exact ⟨printing_disk _ _, fun _ heq => by cases heq⟩
      | suffix name kind mappingsFile =>
          exact ⟨printing_disk _ _, fun _ heq => by cases heq⟩

/-- A run with an output file either writes the whole text of the list that it
builds there and changes nothing else, or it changes nothing and does not end in
success. A run that has written its file ends in success exactly when all that
it prints about it can be printed. -/
theorem run_output (hstands : world.disk.Stands) (arguments : List String)
    (hwithin : ∀ limit,
      (run world arguments).ending ≠ .crashed (.fault (.beyond limit))) :
    let report := run world arguments
    (∀ path list text, Writes world arguments path list text →
      report.disk.read path = .ok (some (Utf8.encode text.toList)) ∧
        Disk.ChangedOnlyAt path world.disk report.disk ∧
        (report.ending.status = 0 ↔ ¬PrintsStray list path)) ∧
      ((∀ path list text, ¬Writes world arguments path list text) →
        report.disk = world.disk ∧
          ∀ request, readRequest world arguments = .ok (.build request) →
            request.output ≠ none → report.ending.status = 1) := by
  refine ⟨fun path list text hwrites => ?_, run_of_never_writes⟩
  obtain ⟨hwritten, hending⟩ := run_of_writes hwrites
  refine ⟨Disk.read_write hwritten,
    Disk.changedOnlyAt_write hstands hwritten, ?_⟩
  rw [hending] at hwithin ⊢
  rcases summary_ending hwithin with
    ⟨hdone, hplain⟩ | ⟨fault, hcrashed, hstrays⟩
  · rw [hdone]
    exact iff_of_true rfl hplain
  · rw [hcrashed]
    exact iff_of_false Nat.one_ne_zero (not_not_intro hstrays)

def markedWorld : World where
  environment := []
  disk := ⟨.directory [
    ("app", .directory [
      ("a-svc.yaml", .file (Utf8.encode "kind: '[b]A[/bold]'\n".toList)),
      ("b-svc.yaml", .file (Utf8.encode "kind: '[/x]'\n".toList))]),
    ("out.yaml", .file [120])], ["app"]⟩

def markedText : String :=
  "apiVersion: v1\nkind: List\nitems:\n- apiVersion: v1\n" ++
    "  kind: '[b]A[/bold]'\n  metadata:\n    name: a\n"

def markedPath : Path := Path.ofText "../out.yaml"

def markedRequest (name : String) : BuildRequest where
  paths := [Path.ofText name]
  name := none
  output := some markedPath
  format := none
  mappingsFile := none

theorem markedWorld_stands : markedWorld.disk.Stands := ⟨_, rfl⟩

theorem run_output_marked :
    let report := run markedWorld ["build", "a-svc.yaml", "-o", "../out.yaml"]
    markedWorld.disk.Stands ∧
      (∀ limit, report.ending ≠ .crashed (.fault (.beyond limit))) ∧
      report.ending.status = 0 ∧
      report.disk.read markedPath = .ok (some (Utf8.encode markedText.toList)) ∧
      Disk.ChangedOnlyAt markedPath markedWorld.disk report.disk ∧
      ∃ list, ¬PrintsStray list markedPath := by
  intro report
  have hrequest :
      readRequest markedWorld ["build", "a-svc.yaml", "-o", "../out.yaml"] =
      .ok (.build (markedRequest "a-svc.yaml")) := by decide +kernel
  have hbuilt :
      ((buildText markedWorld (markedRequest "a-svc.yaml")).toOption.map
        Prod.snd) =
      some markedText := by decide +kernel
  have hending : report.ending = .done := by decide +kernel
  obtain ⟨⟨list, text⟩, hbuilt, rfl⟩ := Option.map_eq_some_iff.mp hbuilt
  have hplace : ∀ inner,
      markedWorld.disk.root.at? ["out.yaml"] ≠ some (.directory inner) := by
    intro inner
    rw [show markedWorld.disk.root.at? ["out.yaml"] =
      some (.file [120]) from rfl]
    rintro ⟨⟩
  have hwrites :
      Writes markedWorld ["build", "a-svc.yaml", "-o", "../out.yaml"] markedPath
        list markedText := by
    refine ⟨⟨_, hrequest, rfl, toOption_eq_some_iff.mp hbuilt⟩, _,
      Disk.write_eq_some_iff.mpr
        ⟨by decide +kernel, ["out.yaml"], by decide +kernel, hplace, rfl⟩⟩
  have hwithin :
      ∀ limit, report.ending ≠ .crashed (.fault (.beyond limit)) := by
    rw [hending]
    exact fun _ => nofun
  have hstatus : report.ending.status = 0 := by rw [hending]; rfl
  obtain ⟨hread, hchanged, hsuccess⟩ :=
    (run_output markedWorld_stands _ hwithin).1 _ _ _ hwrites
  exact ⟨markedWorld_stands, hwithin, hstatus, hread, hchanged, list,
    hsuccess.mp hstatus⟩

/-- Not every run that does not end in success leaves the disk as it was. -/
theorem not_forall_run_unchanged :
    ¬∀ (world : World) (arguments : List String) (request : BuildRequest),
      world.disk.Stands →
      readRequest world arguments = .ok (.build request) →
        request.output ≠ none →
      (run world arguments).ending.status ≠ 0 →
        (run world arguments).disk = world.disk := by
  intro hall
  have hrequest :
      readRequest markedWorld ["build", "b-svc.yaml", "-o", "../out.yaml"] =
      .ok (.build (markedRequest "b-svc.yaml")) := by decide +kernel
  have hreport :
      (run markedWorld
        ["build", "b-svc.yaml", "-o", "../out.yaml"]).ending.status ≠ 0 ∧
      ((run markedWorld ["build", "b-svc.yaml", "-o", "../out.yaml"]).disk.read
        markedPath).toOption ≠
        (markedWorld.disk.read markedPath).toOption := by
    decide +kernel
  have hdisk := hall _ _ _ markedWorld_stands hrequest (by decide) hreport.1
  exact hreport.2 (by rw [hdisk])

end Program

end Fragments
