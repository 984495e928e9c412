import Membrane.Json.Reader
import Membrane.Text.Blank
/-!
Settings of a runtime. A document names settings by key and is read in ascending order of its keys;
variables override single settings afterwards, in a fixed order. The first fault is the one that
is reported.
-/

set_option autoImplicit false

namespace Membrane

/-- How the slots of a reference table are laid out. -/
inductive Layout where
  | dense
  | sparse
deriving DecidableEq, Repr

namespace Layout

def name : Layout → String
  | .dense => "dense"
  | .sparse => "sparse"

def exactText : Layout → String
  | .dense => "Dense"
  | .sparse => "Sparse"

/-- The greatest capacity of dense slots: one takes 32 bytes, and all of them less than `2 ^ 63`. -/
def greatestCapacity : Nat := 0x3ffffffffffffff

/-- Whether there is room for a capacity. Sparse slots are made when they are needed. -/
def hasRoom (layout : Layout) (capacity : Nat) : Bool :=
  match layout with
  | .dense => capacity ≤ greatestCapacity
  | .sparse => true

/-- The layout a text names, whatever its case and the blanks around it. -/
def ofText? (text : String) : Option Layout :=
  match Text.lowered (Text.trim text) with
  | "dense" | "array" => some .dense
  | "sparse" | "map" => some .sparse
  | _ => none

end Layout

structure Config where
  layout : Layout
  initialCapacity : Nat
  weakRefs : Bool
  trace : Bool
  workerStem : String
deriving DecidableEq, Repr

/-- The settings where nothing else is said. -/
def Config.default : Config :=
  { layout := .dense, initialCapacity := 64, weakRefs := true, trace := false,
    workerStem := "hostbridge-worker" }

namespace Config

/-- Why a setting is refused. -/
inductive Refusal where
  /-- The text is no document. -/
  | unreadable
  | notObject
  | unknownKey
  | notString
  | notBoolean
  | notCount
  | unknownLayout (text : String)
  | badCount (text : String)
  | badFlag (text : String)
deriving DecidableEq, Repr

/-- A refused setting and where it stands. -/
structure Error where
  key : String
  refusal : Refusal
deriving DecidableEq, Repr

namespace Refusal

def message : Refusal → String
  | .unreadable => "expected a JSON document"
  | .notObject => "expected a JSON object"
  | .unknownKey => "unknown key"
  | .notString => "expected a string"
  | .notBoolean => "expected a boolean"
  | .notCount => "expected a non-negative integer"
  | .unknownLayout text => "unknown layout `" ++ text ++ "`"
  | .badCount text => "`" ++ text ++ "` is not a count"
  | .badFlag text => "expected a boolean, got `" ++ text ++ "`"

end Refusal

def Error.message (e : Error) : String :=
  "invalid config `" ++ e.key ++ "`: " ++ e.refusal.message

/-- The key under which a fault of the whole document is reported. -/
def documentKey : String := "<document>"

/-- Applies one field of a document. -/
def setField (config : Config) (key : String) (value : Json) : Except Error Config :=
  match key, value with
  | "object_space", .string text =>
    match Layout.ofText? text with
    | some layout => .ok { config with layout }
    | none => .error ⟨key, .unknownLayout text⟩
  | "object_space", _ => .error ⟨key, .notString⟩
  | "initial_capacity", .number (.whole n) =>
    if 0 ≤ n then .ok { config with initialCapacity := n.toNat } else .error ⟨key, .notCount⟩
  | "initial_capacity", _ => .error ⟨key, .notCount⟩
  | "weak_refs", .bool b => .ok { config with weakRefs := b }
  | "weak_refs", _ => .error ⟨key, .notBoolean⟩
  | "trace", .bool b => .ok { config with trace := b }
  | "trace", _ => .error ⟨key, .notBoolean⟩
  | "worker_name_prefix", .string text => .ok { config with workerStem := text }
  | "worker_name_prefix", _ => .error ⟨key, .notString⟩
  | _, _ => .error ⟨key, .unknownKey⟩

/-- The settings of a document, over the defaults. -/
def ofJson (document : Json) : Except Error Config :=
  match document with
  | .object fields => fields.foldlM (fun config (key, value) => config.setField key value) default
  | _ => .error ⟨documentKey, .notObject⟩

/-- The settings of a document's text. -/
def ofText (text : String) : Except Error Config :=
  match Json.parse? text with
  | some document => ofJson document
  | none => .error ⟨documentKey, .unreadable⟩

/-- A count below `2 ^ 64` in decimal digits, with at most one plus in front. -/
def readCount? (text : String) : Option Nat :=
  let digits := match text.toList with
    | '+' :: rest => rest
    | cs => cs
  if digits.isEmpty then none
  else do
    let n ← digits.foldlM (fun n c => (Numeral.digit? c).map (n * 10 + ·)) 0
    if n < Numeral.limit then some n else none

/-- A flag in one of its spellings. -/
def readFlag (key text : String) : Except Error Bool :=
  match Text.lowered (Text.trim text) with
  | "1" | "true" | "yes" | "on" => .ok true
  | "0" | "false" | "no" | "off" => .ok false
  | other => .error ⟨key, .badFlag other⟩

/-- The variables that override settings, in the order in which they are read. -/
inductive Variable where
  | objectSpace
  | initialCapacity
  | weakRefs
  | trace
deriving DecidableEq, Repr

namespace Variable

def name : Variable → String
  | .objectSpace => "HOSTBRIDGE_OBJECT_SPACE"
  | .initialCapacity => "HOSTBRIDGE_INITIAL_CAPACITY"
  | .weakRefs => "HOSTBRIDGE_WEAK_REFS"
  | .trace => "HOSTBRIDGE_TRACE"

def all : List Variable := [.objectSpace, .initialCapacity, .weakRefs, .trace]

/-- Overrides the setting of a variable by its text. -/
def apply (config : Config) (v : Variable) (text : String) : Except Error Config :=
  match v with
  | .objectSpace =>
    match Layout.ofText? text with
    | some layout => .ok { config with layout }
    | none => .error ⟨v.name, .unknownLayout text⟩
  | .initialCapacity =>
    match readCount? (Text.trim text) with
    | some n => .ok { config with initialCapacity := n }
    | none => .error ⟨v.name, .badCount text⟩
  | .weakRefs => return { config with weakRefs := (← readFlag v.name text) }
  | .trace => return { config with trace := (← readFlag v.name text) }

end Variable

/-- The settings with every variable applied that is set. -/
def withVariables (config : Config) (lookup : String → Option String) : Except Error Config :=
  Variable.all.foldlM (fun config v =>
    match lookup v.name with
    | some text => Variable.apply config v text
    | none => .ok config) config

end Config

end Membrane
