import Fragments.Failure
import Fragments.Data.Value

namespace Fragments

/-- The groups of kinds. Every kind that no other group lists belongs to
`core`. -/
inductive Group
  | core
  | apps
  | batch
  | networking
  | rbac
  | apiextensions
  | openshiftApps
  | openshiftRoute
  | openshiftBuild
  | openshiftImage
  | openshiftTemplate
  | openshiftProject
  deriving DecidableEq, Inhabited

namespace Group

def all : List Group :=
  [core, apps, batch, networking, rbac, apiextensions, openshiftApps,
    openshiftRoute, openshiftBuild, openshiftImage, openshiftTemplate,
    openshiftProject]

def setting : Group → String
  | core => "core_version"
  | apps => "apps_version"
  | batch => "batch_version"
  | networking => "networking_version"
  | rbac => "rbac_version"
  | apiextensions => "apiextensions_version"
  | openshiftApps => "openshift_apps_version"
  | openshiftRoute => "openshift_route_version"
  | openshiftBuild => "openshift_build_version"
  | openshiftImage => "openshift_image_version"
  | openshiftTemplate => "openshift_template_version"
  | openshiftProject => "openshift_project_version"

def defaultVersion : Group → String
  | core => "v1"
  | apps => "apps/v1"
  | batch => "batch/v1"
  | networking => "networking.k8s.io/v1"
  | rbac => "rbac.authorization.k8s.io/v1"
  | apiextensions => "apiextensions.k8s.io/v1"
  | openshiftApps => "apps.openshift.io/v1"
  | openshiftRoute => "route.openshift.io/v1"
  | openshiftBuild => "build.openshift.io/v1"
  | openshiftImage => "image.openshift.io/v1"
  | openshiftTemplate => "template.openshift.io/v1"
  | openshiftProject => "project.openshift.io/v1"

def kinds : Group → List String
  | core => []
  | apps => ["Deployment", "ReplicaSet", "StatefulSet", "DaemonSet"]
  | batch => ["Job", "CronJob"]
  | networking => ["Ingress", "NetworkPolicy"]
  | rbac => ["Role", "RoleBinding", "ClusterRole", "ClusterRoleBinding"]
  | apiextensions => ["CustomResourceDefinition"]
  | openshiftApps => ["DeploymentConfig"]
  | openshiftRoute => ["Route"]
  | openshiftBuild => ["BuildConfig"]
  | openshiftImage => ["ImageStream", "ImageStreamTag"]
  | openshiftTemplate => ["Template"]
  | openshiftProject => ["Project", "ProjectRequest"]

def ofKind (kind : String) : Group :=
  (all.find? fun group => group.kinds.contains kind).getD core

end Group

/-- The version of every group, and the kinds with versions of their own. The
latter may be any values: they are put into fragments as they are. -/
structure Versioning where
  version : Group → String
  overrides : List (Scalar × Value)
  deriving Inhabited

namespace Versioning

def standard : Versioning := ⟨Group.defaultVersion, []⟩

/-- The value for a kind, null when it is to have none. -/
def forKind (versioning : Versioning) (kind : String) : Value :=
  match Value.field? versioning.overrides kind with
  | some value => value
  | none => .text (versioning.version (Group.ofKind kind))

/-- The versioning with further overrides, which replace those for the same
kinds. -/
def withOverrides (versioning : Versioning)
    (overrides : List (Scalar × Value)) : Versioning :=
  { versioning with overrides := Value.update versioning.overrides overrides }

def notText : String := "Input should be a valid string"

def isText : Value → Bool
  | .scalar (.text _) => true
  | _ => false

def versionComplaints (fields : List (Scalar × Value)) : List Complaint :=
  Group.all.filterMap fun group =>
    match Value.field? fields group.setting with
    | some value =>
        if isText value then none else some ⟨[group.setting], notText⟩
    | none => none

def overrideComplaints (fields : List (Scalar × Value)) : List Complaint :=
  match Value.field? fields "overrides" with
  | none => []
  | some (.mapping _ entries) =>
      entries.filterMap fun
        | (.text kind, value) =>
            if isText value then none else some ⟨["overrides", kind], notText⟩
        | _ => none
  | some _ => [⟨["overrides"], "Input should be a valid dictionary"⟩]

/-- The versioning that some fields describe; groups that are not named keep
their versions. -/
def ofFields (fields : List (Scalar × Value)) : Except Problem Versioning :=
  match versionComplaints fields ++ overrideComplaints fields with
  | [] =>
      .ok
        { version := fun group =>
            match Value.field? fields group.setting with
            | some (.scalar (.text version)) => version
            | _ => group.defaultVersion
          overrides :=
            match Value.field? fields "overrides" with
            | some (.mapping _ entries) => entries
            | _ => [] }
  | complaints => .error (.rejected complaints)

end Versioning

end Fragments
