import Fragments.Proofs.Resource.Dumpable
import Fragments.Proofs.ResourceList.Frame
import Fragments.Proofs.ResourceList.Order

namespace Fragments

namespace Fragment

end Fragment

namespace Resource

variable {fragment : Fragment} {resource : Resource}

end Resource

namespace ResourceList

open Resource

variable {list : ResourceList} {setting : Setting} {paths : List Path}

end ResourceList

end Fragments
