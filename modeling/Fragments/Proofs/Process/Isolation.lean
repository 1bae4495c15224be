import Fragments.Proofs.Process.Session
import Fragments.Proofs.ResourceList.Order

namespace Fragments

open Registry (Handle)

/-- Two disks hold the same wherever a call reads. -/
def Call.ReadsSame (disk other : Disk) : Call → Prop
  | .build _ _ paths =>
      ∀ path ∈ paths, FileName.isExcluded path.name = false →
        disk.read path = other.read path
  | _ => True

theorem Call.answer_congr {call : Call} {disk other : Disk}
    (hreads : call.ReadsSame disk other) (registry : Registry) :
    call.answer disk registry = call.answer other registry := by
  cases call with
  | build versioning defaultName paths =>
      let setting : ResourceList.Setting :=
        ⟨registry, versioning, defaultName, other⟩
      have hbuild : ResourceList.build { setting with disk } paths =
          ResourceList.build setting paths := ResourceList.build_congr hreads
      exact congrArg (fun built => (built.map Reply.built, registry)) hbuild
  | _ => rfl

namespace Process

/-- A process is as it was before, but for what one registry holds. -/
structure Untouched (handle : Handle) (before after : Process) : Prop where
  world : after.world = before.world
  settings : after.settings = before.settings
  shared : after.shared = before.shared
  session : after.session = before.session
  made : after.made = before.made
  own : after.own = before.own
  registries : ∀ other, other ≠ handle →
    after.registries other = before.registries other

/-- Two outcomes, of which each comes from a process with a registry of its own,
cannot be told apart by what is answered or by what the registry then holds, and
both processes are left as they were. -/
structure Alike (process : Process) (handle : Handle)
    (result : Except Problem Reply × Process) (other : Process) (own : Handle)
    (outcome : Except Problem Reply × Process) : Prop where
  reply : result.1 = outcome.1
  effect : result.2.registries handle = outcome.2.registries own
  untouched : Untouched handle process result.2
  other_untouched : Untouched own other outcome.2

variable {process other : Process} {handle own : Handle}

theorem untouched_store (hshared : process.shared ≠ some handle)
    (registry : Registry) :
    Untouched handle process (process.store handle registry) where
  world := rfl
  settings := rfl
  shared := rfl
  session := session_store_of_ne hshared registry
  made := rfl
  own := rfl
  registries := fun _ hne => registries_store_of_ne hne registry process

theorem alike_call (hsame : process.registries handle = other.registries own)
    (hshared : process.shared ≠ some handle) (hother : other.shared ≠ some own)
    {call : Call}
    (hreads : call.ReadsSame process.world.disk other.world.disk) :
    Alike process handle (process.call (some handle) call)
      other own (other.call (some own) call) where
  reply := by
    rw [call_some, call_some, hsame, Call.answer_congr hreads]
  effect := by
    rw [call_some, call_some, hsame, Call.answer_congr hreads]
    simp
  untouched := untouched_store hshared _
  other_untouched := untouched_store hother _

theorem openService_some (handle : Handle) (process : Process) :
    process.openService (some handle) = (.ok ⟨handle⟩, process) := rfl

/-- Whatever two processes keep, and whatever their environments, the entry
points do the same with two given registries that hold the same, none of them
the shared one: they answer alike, leave the two registries alike, and leave all
else in both processes as it was. A service that is opened with a registry, even
an empty one, works with that registry. -/
theorem given_registry_isolates
    (hsame : process.registries handle = other.registries own)
    (hshared : process.shared ≠ some handle)
    (hother : other.shared ≠ some own) :
    (∀ fragment file versioning appName,
        Alike process handle
          (process.enrichFragment fragment file versioning appName
            (some handle))
          other own (other.enrichFragment fragment file versioning appName
            (some own))) ∧
      (∀ name kind,
        Alike process handle (process.suffixForKind name kind (some handle))
          other own (other.suffixForKind name kind (some own))) ∧
      (∀ batch,
        Alike process handle (process.upsertMappings batch (some handle))
          other own (other.upsertMappings batch (some own))) ∧
      process.openService (some handle) = (.ok ⟨handle⟩, process) ∧
      other.openService (some own) = (.ok ⟨own⟩, other) ∧
      ∀ versioning defaultName paths,
        (∀ path ∈ paths, FileName.isExcluded path.name = false →
          process.world.disk.read path = other.world.disk.read path) →
        Alike process handle
          (Service.build ⟨handle⟩ versioning defaultName paths process)
            other own (Service.build ⟨own⟩ versioning defaultName paths other) ∧
          Alike process handle
            (process.buildResourceList versioning defaultName paths
              (some handle))
            other own (other.buildResourceList versioning defaultName paths
              (some own)) := by
  have hcall : ∀ call : Call,
      call.ReadsSame process.world.disk other.world.disk →
      Alike process handle (process.call (some handle) call)
        other own (other.call (some own) call) :=
    fun _ hreads => alike_call hsame hshared hother hreads
  refine ⟨fun _ _ _ _ => hcall _ trivial, fun _ _ => hcall _ trivial, fun _ =>
    hcall _ trivial, openService_some handle process,
      openService_some own other, fun _ _ _ hreads => ⟨?_, ?_⟩⟩
  · exact hcall (.build _ _ _) hreads
  · rw [buildResourceList_eq_call, buildResourceList_eq_call]
    exact hcall (.build _ _ _) hreads

def busy : Process :=
  (start ⟨[("KUBEFRAG_APPS_VERSION", "apps/v2")], .blank []⟩).run
    [.getShared, .make .absent]

def idle : Process := (start ⟨[], .blank []⟩).run [.make .absent]

theorem given_registry_isolates_empty :
    let batch : Batch := .entries [.ready ⟨"Widget", ["wd"]⟩]
    (busy.settings.isSome ∧ busy.shared = some 0 ∧ idle.settings.isNone ∧
      idle.shared = none) ∧
      (busy.registries 1).size = 0 ∧
      (busy.suffixForKind "web" (some "Service") (some 1)).1 =
        (idle.suffixForKind "web" (some "Service") (some 0)).1 ∧
      ((busy.upsertMappings batch (some 1)).2.registries 1 =
          (idle.upsertMappings batch (some 0)).2.registries 0 ∧
        (busy.upsertMappings batch (some 1)).2.session = busy.session) ∧
      (busy.buildResourceList ⟨fun _ => "v1", []⟩ "app"
        [Path.ofText "web-svc.yaml"] (some 1)).1 =
        (idle.buildResourceList ⟨fun _ => "v1", []⟩ "app"
          [Path.ofText "web-svc.yaml"] (some 0)).1 := by
  intro batch
  have hsame : busy.registries 1 = idle.registries 0 := by decide +kernel
  have hshared : busy.shared ≠ some 1 := by decide +kernel
  have hother : idle.shared ≠ some 0 := by decide +kernel
  obtain ⟨-, hsuffix, hupsert, -, -, hbuild⟩ :=
    given_registry_isolates hsame hshared hother
  refine ⟨by decide +kernel, by decide +kernel, (hsuffix _ _).reply,
    ⟨(hupsert batch).effect, (hupsert batch).untouched.session⟩,
    (hbuild _ _ _ ?_).2.reply⟩
  intro path hmem _
  rfl

end Process

end Fragments
