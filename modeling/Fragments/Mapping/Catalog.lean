import Fragments.Mapping.Registry

namespace Fragments.Catalog

def kinds : List (String × List String) := [
    ("BuildConfig", ["bc", "buildconfig"]),
    ("ClusterRole", ["cr", "crole", "clusterrole"]),
    ("ConfigMap", ["cm", "configmap"]),
    ("ClusterRoleBinding", ["crb", "clusterrb", "clusterrolebinding"]),
    ("CronJob", ["cj", "cronjob"]),
    ("CustomResourceDefinition", ["crd", "customerresourcedefinition"]),
    ("DaemonSet", ["ds", "daemonset"]),
    ("Deployment", ["deployment"]),
    ("DeploymentConfig", ["dc", "deploymentconfig"]),
    ("ImageStream", ["is", "imagestream"]),
    ("ImageStreamTag", ["istag", "imagestreamtag"]),
    ("Ingress", ["ingress"]),
    ("Job", ["job"]),
    ("LimitRange", ["lr", "limitrange"]),
    ("Namespace", ["ns", "namespace"]),
    ("NetworkPolicy", ["np", "networkpolicy"]),
    ("OAuthClient", ["oauthclient"]),
    ("PolicyBinding", ["pb", "policybinding"]),
    ("PersistentVolume", ["pv", "persistentvolume"]),
    ("PersistentVolumeClaim", ["pvc", "persistentvolumeclaim"]),
    ("Project", ["project"]),
    ("ProjectRequest", ["pr", "projectrequest"]),
    ("ReplicaSet", ["rs", "replicaset"]),
    ("ReplicationController", ["rc", "replicationcontroller"]),
    ("ResourceQuota", ["rq", "resourcequota"]),
    ("Role", ["role"]),
    ("RoleBinding", ["rb", "rolebinding"]),
    ("RoleBindingRestriction", ["rbr", "rolebindingrestriction"]),
    ("Route", ["route"]),
    ("Secret", ["secret"]),
    ("Service", ["svc", "service"]),
    ("ServiceAccount", ["sa", "serviceaccount"]),
    ("StatefulSet", ["statefulset"]),
    ("Template", ["template"]),
    ("Pod", ["pd", "pod"])]

def entries : List MappingEntry := kinds.map fun (kind, tokens) =>
    ⟨kind, tokens⟩

def registry : Registry := Registry.empty.addAll entries

end Fragments.Catalog
