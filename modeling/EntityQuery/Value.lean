import EntityQuery.Guid
import EntityQuery.Json.Basic
import EntityQuery.Number.Decimal
import EntityQuery.Time.Reader

/-!
# Values

A `Value` is what a field of an entity holds: nothing, or a text, number, truth value, instant or
GUID. Values of one kind have an order, `compare`; `sortCompare` makes of it an order of all
values in which nothing comes first. `toJson` is the plain form of a value and `toDocument` its
form in stored documents, where instants and GUIDs are wrapped so that `ofDocument` can tell them
from texts.
-/

namespace EntityQuery

inductive Value where
  | null
  | string (s : String)
  | number (x : Number)
  | boolean (b : Bool)
  | dateTime (i : Instant)
  | guid (g : Guid)
  deriving DecidableEq

namespace Value

def isNull : Value → Bool
  | null => true
  | _ => false

/-- Order of texts by their characters. -/
def compareText (a b : String) : Ordering := Ord.compare a.toList b.toList

/-- Order of two values of the same kind. Nothing is comparable with null. -/
def compare : Value → Value → Option Ordering
  | string a, string b => some (compareText a b)
  | number a, number b => a.compare b
  | boolean a, boolean b => some (Ord.compare a b)
  | dateTime a, dateTime b => some (a.compare b)
  | guid a, guid b => some (a.compare b)
  | _, _ => none

/-- Null before all else; values that cannot be compared are even. -/
def sortCompare : Value → Value → Ordering
  | null, null => .eq
  | null, _ => .lt
  | _, null => .gt
  | a, b => (a.compare b).getD .eq

/-! ## JSON -/

/-- A whole number of moderate size is written as an integer, any other finite one as a float. -/
def numberToJson (x : Number) : Json :=
  match x.whole? with
  | some n => .int n
  | none => if x.isFinite then .float x else .null

def toJson : Value → Json
  | null => .null
  | string s => .string s
  | number x => numberToJson x
  | boolean b => .bool b
  | dateTime i => .string i.text
  | guid g => .string g.text

/-- The bare form, in which numbers are always floats. -/
def toBareJson : Value → Json
  | number x => if x.isFinite then .float x else .null
  | v => v.toJson

def toDocument : Value → Json
  | dateTime i => .object [("$date", .string i.text)]
  | guid g => .object [("$uuid", .string g.text)]
  | v => v.toJson

/-- The value that a part of a document holds; arrays and other objects hold nothing. -/
def ofDocument : Json → Value
  | .bool b => boolean b
  | .int n => number (.ofInt n)
  | .float x => number x
  | .string s => string s
  | .object [("$date", .string s)] => ((Instant.read? s).map dateTime).getD null
  | .object [("$uuid", .string s)] => ((Guid.read? s).map guid).getD null
  | _ => null

end Value

end EntityQuery
