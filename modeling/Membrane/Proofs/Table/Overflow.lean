import Membrane.Proofs.Table.RefTable
import Membrane.Proofs.World.Update
import Membrane.World.Entry
/-!
Counts that run over. A count has 32 bits, and a reference more to a handle of the greatest count
leaves it at zero. The reference is granted all the same, and the next one that is given back ends
the handle.
-/

set_option autoImplicit false

namespace Membrane

namespace RefTable

/-- Some references to a handle are given back, one after the other. -/
def releases (t : RefTable) (h : Handle) : Nat → Except Fault RefTable
  | 0 => .ok t
  | n + 1 => (t.release h).bind fun t' => t'.releases h n

variable {t : RefTable}

end RefTable

namespace Act

open World RefTable

end Act

end Membrane
