import Membrane.Number.Text
/-!
JSON documents. The fields of an object are kept in ascending order of their keys, each key once.
-/

set_option autoImplicit false

namespace Membrane

/-- A number of a document: whole when written without fraction and exponent and small enough for
64 bits, otherwise rounded. -/
inductive Numeral where
  | whole (n : Int)
  | real (x : Number)
deriving DecidableEq, Repr

/-- The floating number nearest to a numeral. -/
def Numeral.toNumber : Numeral → Number
  | .whole n => .ofInt n
  | .real x => x

inductive Json where
  | null
  | bool (b : Bool)
  | number (n : Numeral)
  | string (s : String)
  | array (items : List Json)
  | object (fields : List (String × Json))
deriving Repr, Inhabited

namespace Json

/-- Puts a field in its place among ascending fields; the last value given to a key stays. -/
def insertField (key : String) (value : Json) : List (String × Json) → List (String × Json)
  | [] => [(key, value)]
  | (k, v) :: rest =>
    if key < k then (key, value) :: (k, v) :: rest
    else if key = k then (key, value) :: rest
    else (k, v) :: insertField key value rest

/-- The object with the fields given, in whatever order they come. -/
def ofFields (fields : List (String × Json)) : Json :=
  .object (fields.foldl (fun acc (k, v) => insertField k v acc) [])

/-- The value of a key of an object. -/
def field? (key : String) : Json → Option Json
  | .object fields => fields.lookup key
  | _ => none

def nat (n : Nat) : Json := .number (.whole n)

def int (n : Int) : Json := .number (.whole n)

end Json

end Membrane
