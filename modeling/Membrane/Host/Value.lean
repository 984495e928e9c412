import Membrane.Number.Text
/-!
Values of the host. Scalars and strings are values themselves; objects have an identity, the place
where they were made. Values are told apart in two ways: `strictEq` compares numbers numerically,
and `key` also takes all words that are not a number for one value.
-/

set_option autoImplicit false

namespace Membrane

/-- Where an object stands in the heap. Objects are numbered as they are made. -/
abbrev ObjectId := Nat

/-- Where a promise stands among the promises. -/
abbrev PromiseId := Nat

/-- Where a realm stands among the realms. -/
abbrev RealmId := Nat

namespace Host

inductive Value where
  | undefined
  | null
  | bool (b : Bool)
  | number (x : Number)
  | string (s : String)
  | object (id : ObjectId)
deriving DecidableEq, Repr, Inhabited

/-- What a table of values is indexed by. -/
inductive Key where
  | undefined
  | null
  | bool (b : Bool)
  | number (bits : UInt64)
  | string (s : String)
  | object (id : ObjectId)
deriving DecidableEq, Hashable, Repr

namespace Value

/-- The key of a value: the zeros share one, and so does all that is not a number. -/
def key : Value → Key
  | .undefined => .undefined
  | .null => .null
  | .bool b => .bool b
  | .number x => .number (if x.isNaN then Number.nan.bits else if x.isZero then 0 else x.bits)
  | .string s => .string s
  | .object id => .object id

/-- Equality as the host computes it. -/
def strictEq : Value → Value → Bool
  | .undefined, .undefined => true
  | .null, .null => true
  | .bool a, .bool b => a == b
  | .number x, .number y => x.eq y
  | .string s, .string t => s == t
  | .object a, .object b => a == b
  | _, _ => false

/-- Whether a value counts as true. -/
def truthy : Value → Bool
  | .undefined | .null => false
  | .bool b => b
  | .number x => !(x.isZero || x.isNaN)
  | .string s => s != ""
  | .object _ => true

def object? : Value → Option ObjectId
  | .object id => some id
  | _ => none

end Value

end Host

end Membrane
