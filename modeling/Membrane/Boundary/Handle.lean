/-!
Handles name the host values that a guest may refer to. On the wire a handle is the signed reading
of its word.
-/

set_option autoImplicit false

namespace Membrane

structure Handle where
  raw : UInt32
deriving DecidableEq, Hashable, Repr, Inhabited

namespace Handle

/-- The handle that is never given out. -/
def invalid : Handle := ⟨0⟩

/-- The handle of a realm's global object. -/
def globalObject : Handle := ⟨1⟩

/-- The least handle that is given out on demand. -/
def firstDynamic : UInt32 := 2

def toWire (h : Handle) : Int32 := h.raw.toInt32

def ofWire (n : Int32) : Handle := ⟨n.toUInt32⟩

def isValid (h : Handle) : Bool := h.raw != 0

def text (h : Handle) : String := "Handle(" ++ toString h.raw.toNat ++ ")"

end Handle

/-- The place of a thread in its runtime. -/
structure ThreadIndex where
  val : UInt32
deriving DecidableEq, Hashable, Repr, Inhabited

namespace ThreadIndex

def text (t : ThreadIndex) : String := "thread#" ++ toString t.val.toNat

def exactText (t : ThreadIndex) : String := "ThreadIndex(" ++ toString t.val.toNat ++ ")"

end ThreadIndex

/-- The number under which a guest function is registered in its realm. -/
structure FunctionId where
  raw : UInt32
deriving DecidableEq, Hashable, Repr, Inhabited

namespace FunctionId

def text (f : FunctionId) : String := "host-func#" ++ toString f.raw.toNat

def exactText (f : FunctionId) : String := "HostFuncRef(" ++ toString f.raw.toNat ++ ")"

end FunctionId

end Membrane
