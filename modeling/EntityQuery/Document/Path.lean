import EntityQuery.Text.Blank
import EntityQuery.Value

/-!
# Paths into documents

A path is a list of member names with dots between them. What is missing on the way reads as null.
-/

namespace EntityQuery.Document

def segments (path : String) : List String := (Text.splitOnChar '.' path.toList).map String.ofList

def descend (j : Json) : List String → Json
  | [] => j
  | s :: rest =>
    match j.get? s with
    | some next => descend next rest
    | none => .null

def lookup (doc : Json) (path : String) : Json := descend doc (segments path)

/-- The value that a document holds at a path. -/
def valueAt (doc : Json) (path : String) : Value := .ofDocument (lookup doc path)

end EntityQuery.Document
