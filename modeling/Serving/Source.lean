import Serving.Json.Basic
import Serving.Yaml.Basic
import Serving.Yaml.Number
import Serving.Duration.Reader
import Serving.Duration.Printer
import Serving.Table

/-!
# Reading settings

Settings come as JSON or as YAML. A reader takes a node of either kind and yields a value of the type
it reads, or nothing. In YAML a scalar has no type of its own: it is read as the type asked for. A
record may be written as an object; in JSON also as an array of its fields in order, from which fields
at the end may be missing.
-/

namespace Serving

inductive Source
  | json (v : Json)
  | yaml (v : Yaml)

abbrev Reader (α : Type) := Source → Option α

namespace Source

def text : Reader String
  | .json (.str s) => some s
  | .yaml (.scalar s _) => some s
  | _ => none

def bool : Reader Bool
  | .json (.bool b) => some b
  | .yaml (.scalar s true) => Yaml.bool? s
  | _ => none

/-- A whole number from zero to `limit`. -/
def natural (limit : Nat) : Reader Nat := fun s =>
  let n? := match s with
    | .json (.int n) => if 0 ≤ n then some n.toNat else none
    | .yaml (.scalar t true) => Yaml.natural? t
    | _ => none
  n?.bind fun n => if n ≤ limit then some n else none

/-- A whole number that fits 64 bits. -/
def word : Reader Nat := natural 18446744073709551615

/-- A port number, which fits 16 bits. -/
def port : Reader Nat := natural 65535

/-- A whole number that fits 64 bits with a sign. -/
def integer : Reader Int := fun s =>
  let n? := match s with
    | .json (.int n) => some n
    | .yaml (.scalar t true) => Yaml.whole? t
    | _ => none
  n?.bind fun n => if -9223372036854775808 ≤ n ∧ n < 9223372036854775808 then some n else none

def float : Reader Float
  | .json (.int n) => some (Float.ofInt n)
  | .json (.float x) => some x
  | .yaml (.scalar s true) => Yaml.float? s
  | _ => none

def duration : Reader Duration := fun s => (text s).bind fun t => (Duration.read t).toOption

def optional {α : Type} (read : Reader α) : Reader (Option α)
  | .json .null => some none
  | .yaml (.scalar s true) => if Yaml.isNull s then some none else (read (.yaml (.scalar s true))).map some
  | s => (read s).map some

def list {α : Type} (read : Reader α) : Reader (List α)
  | .json (.arr vs) => vs.mapM fun v => read (.json v)
  | .yaml (.seq vs) => vs.mapM fun v => read (.yaml v)
  | .yaml (.scalar "" true) => some []
  | _ => none

def entries : Source → Option (List (String × Source))
  | .json (.obj fields) => some (fields.map fun (n, v) => (n, .json v))
  | .yaml (.map es) => some (es.map fun (n, v) => (n, .yaml v))
  | .yaml (.scalar "" true) => some []
  | _ => none

/-- Values by name; of several values of one name the last one counts. -/
def table {α : Type} (read : Reader α) : Reader (Table α) := fun s => do
  let es ← entries s
  let values ← es.mapM fun (n, v) => (read v).map (n, ·)
  return .ofList values

abbrev Fields := List (String × Source)

/-- The given fields of a record with the listed names. Other names are passed over; none of the
listed ones may occur twice. -/
def fields (names : List String) : Reader Fields
  | .json (.arr vs) => if vs.length ≤ names.length then some (names.zip (vs.map .json)) else none
  | s => do
    let known := (← entries s).filter fun (n, _) => names.contains n
    if (known.map (·.1)).Nodup then some known else none

/-- The given fields of a record whose array form has to name every field. -/
def allFields (names : List String) : Reader Fields
  | .json (.arr vs) => if vs.length = names.length then some (names.zip (vs.map .json)) else none
  | s => fields names s

namespace Fields

/-- A field that may be left out. -/
def get {α : Type} (given : Fields) (name : String) (read : Reader α) (fallback : α) : Option α :=
  match given.lookup name with
  | none => some fallback
  | some s => read s

def require {α : Type} (given : Fields) (name : String) (read : Reader α) : Option α :=
  (given.lookup name).bind read

end Fields

/-- One of some named choices. In JSON a choice may also be an object with `null` under its name. -/
def choice {α : Type} (parse : String → Option α) : Reader α
  | .json (.obj [(name, .null)]) => parse name
  | s => (text s).bind parse

end Source

namespace Json

def ofDuration (d : Duration) : Json := .str (Duration.text d)

def ofTable {α : Type} (f : α → Json) (t : Table α) : Json :=
  .obj (t.toList.map fun (n, v) => (n, f v))

end Json

end Serving
