/-
Replica.Request.Variable — names of query variables.

Variables that all queries of a request share keep their names; any other variable
gets the model's name behind its own, so that two models cannot collide. Inside a
query text a reference is a dollar sign and the name; renaming replaces references
and leaves longer names that start the same way alone.
-/
import Replica.Schema.Registry

namespace Replica.Variable

/-- The variables that all queries of a request share. -/
def shared : List String := ["limit", "lastSync"]

def isShared (name : String) : Bool := shared.contains name

/-- The name of a model's variable in a request. -/
def namespaced (name model : String) : String := if isShared name then name else name ++ model

/-- What is left behind a given start, if a text starts with it. -/
def afterStart? : List Char → List Char → Option (List Char)
  | [], cs => some cs
  | s :: ss, c :: cs => if s = c then afterStart? ss cs else none
  | _ :: _, [] => none

/-- Whether a text starts with a character that a name may go on with. -/
def continuesName : List Char → Bool
  | c :: _ => isWordChar c
  | [] => false

/-- Replace whole references; `skip` characters are still part of the last one found,
which starts with a dollar sign and is `found` long in all. -/
def renameFrom (found : List Char) (replacement : List Char) : Nat → List Char → List Char
  | _, [] => []
  | skip + 1, _ :: cs => renameFrom found replacement skip cs
  | 0, c :: cs =>
    match afterStart? found (c :: cs) with
    | some rest =>
      (if continuesName rest then found else replacement)
        ++ renameFrom found replacement (found.length - 1) cs
    | none => c :: renameFrom found replacement 0 cs

/-- A query text in which the references to a variable are renamed. -/
def rename (body source target : String) : String :=
  String.ofList (renameFrom ('$' :: source.toList) ('$' :: target.toList) 0 body.toList)

example : rename "a(filter: $filter, other: $filterX, next: $next)" "filter" "filterFont"
    = "a(filter: $filterFont, other: $filterX, next: $next)" := by decide +kernel

end Replica.Variable
