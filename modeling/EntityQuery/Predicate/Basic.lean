import EntityQuery.FieldMap.Basic
import EntityQuery.Filter.Operator

/-!
# Predicates

A `Predicate` is a filter bound to the fields of one kind of entity. It is either true or false of
an entity: over a null field a test is false, unless it is negative, and then it is true. Every
test of a field is a leaf, and `leafCount` counts them.
-/

namespace EntityQuery

/-- Does a comparison hold, given the order of its two sides? -/
def Comparison.holds : Comparison → Option Ordering → Bool
  | eq, o => o == some .eq
  | ne, o => o != some .eq
  | gt, o => o == some .gt
  | ge, o => o == some .gt || o == some .eq
  | lt, o => o == some .lt
  | le, o => o == some .lt || o == some .eq

/-- The verdict of a comparison on a null. -/
def Comparison.onNull (c : Comparison) : Bool := c == .ne

/-- Tests of a text for a part of it. -/
inductive TextTest where
  | contains
  | startsWith
  | endsWith
  deriving DecidableEq, Repr

namespace TextTest

/-- Is the needle somewhere in the text? -/
def occurs (needle : List Char) : List Char → Bool
  | [] => needle.isEmpty
  | c :: cs => needle.isPrefixOf (c :: cs) || occurs needle cs

def holds (t : TextTest) (text needle : String) : Bool :=
  match t with
  | contains => occurs needle.toList text.toList
  | startsWith => needle.toList.isPrefixOf text.toList
  | endsWith => needle.toList.isSuffixOf text.toList

end TextTest

inductive Predicate (α : Type) where
  | compare (field : Field α) (op : Comparison) (value : Value)
  | text (field : Field α) (test : TextTest) (needle : String) (negated : Bool)
  | isIn (field : Field α) (values : List Value) (negated : Bool)
  | isNull (field : Field α) (negated : Bool)
  | and (left right : Predicate α)
  | or (left right : Predicate α)
  | not (inner : Predicate α)

namespace Predicate

variable {α : Type}

def evaluate (entity : α) : Predicate α → Bool
  | compare f op v =>
    let actual := f.read entity
    if actual.isNull then op.onNull else op.holds (actual.compare v)
  | text f test needle negated =>
    match f.read entity with
    | .string s => test.holds s needle != negated
    | _ => negated
  | isIn f vs negated =>
    let actual := f.read entity
    if actual.isNull then negated else vs.any (fun v => actual.compare v == some .eq) != negated
  | isNull f negated => (f.read entity).isNull != negated
  | and l r => l.evaluate entity && r.evaluate entity
  | or l r => l.evaluate entity || r.evaluate entity
  | not p => !p.evaluate entity

def leafCount : Predicate α → Nat
  | and l r | or l r => l.leafCount + r.leafCount
  | not p => p.leafCount
  | _ => 1

end Predicate

end EntityQuery
