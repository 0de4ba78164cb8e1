import EntityQuery.Predicate.Basic

/-!
# LIKE patterns

In a LIKE pattern a percent sign stands for any text and an underscore for any character, unless a
backslash is in front. `escapeLike` puts one in front of each of the three, so that the pattern of a
test matches its needle literally.
-/

namespace EntityQuery.Sql

def escapeLikeChars : List Char → List Char
  | [] => []
  | c :: cs =>
    if c = '\\' ∨ c = '%' ∨ c = '_' then '\\' :: c :: escapeLikeChars cs
    else c :: escapeLikeChars cs

def escapeLike (s : String) : String := String.ofList (escapeLikeChars s.toList)

/-- The pattern for the texts that pass a test with a needle. -/
def likePattern (t : TextTest) (needle : String) : String :=
  match t with
  | .contains => "%" ++ escapeLike needle ++ "%"
  | .startsWith => escapeLike needle ++ "%"
  | .endsWith => "%" ++ escapeLike needle

end EntityQuery.Sql
