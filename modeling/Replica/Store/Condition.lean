/-
Replica.Store.Condition — predicates as conditions of a database query.

A condition is what a `WHERE` clause says: comparisons of a column with a parameter,
combined by `AND`, `OR` and `NOT`. It has a text with one placeholder for each
comparison, the list of parameters in the same order, and a meaning in three-valued
logic: a comparison with a missing cell is unknown, except that "is not" is always
known. Only the names of fields reach the text, and only names made of ASCII letters,
digits and underscores are accepted.

Main statements:
* `evalAll_append`, `evalAny_append` — the connectives are Kleene's.
-/
import Replica.Predicate.Basic
import Replica.Store.Cell
import Replica.Store.Error

namespace Replica

/-! ## Three-valued logic -/

/-- True, false or unknown. -/
abbrev Truth := Option Bool

namespace Truth

/-- False if one side is, else unknown if one side is. -/
def and : Truth → Truth → Truth
  | some false, _ => some false
  | _, some false => some false
  | some true, some true => some true
  | _, _ => none

/-- True if one side is, else unknown if one side is. -/
def or : Truth → Truth → Truth
  | some true, _ => some true
  | _, some true => some true
  | some false, some false => some false
  | _, _ => none

end Truth

/-! ## Conditions -/

/-- What a comparison reads of a row. -/
inductive Column where
  /-- The identifier. -/
  | id
  /-- A top-level field of the stored object. -/
  | field (name : String)
  deriving DecidableEq, Repr

/-- What a `WHERE` clause says. -/
inductive Condition where
  /-- Every row. -/
  | always
  /-- A column compared with a parameter. -/
  | compare (column : Column) (op : Operator) (param : Cell)
  /-- All parts hold. -/
  | allOf (parts : List Condition)
  /-- Some part holds. -/
  | anyOf (parts : List Condition)
  /-- The part is false or unknown. -/
  | complement (part : Condition)

namespace Column

/-- The column of a field name, unless the name cannot stand in a query. -/
def ofField (name : String) : Except StoreError Column :=
  if name = FieldName.id then .ok id
  else if name = "" ∨ isWord name = false then .error (.invalidData (.unsupportedField name))
  else .ok (field name)

/-- The SQL expression that reads the column. -/
def text : Column → String
  | id => "id"
  | field name => "json_extract(data, '$." ++ name ++ "')"

/-- The cell of the column in a row. -/
def cell (rowId : String) (fields : Fields) : Column → Cell
  | id => .text rowId
  | field name => .ofField fields name

/-- A parameter as the column compares it; the identifier is a text column. -/
def adapt : Column → Cell → Cell
  | id, c => c.asText
  | field _, c => c

end Column

namespace Condition

/-! ### From predicates -/

mutual

/-- The condition of a predicate. -/
def ofPredicate : Predicate → Except StoreError Condition
  | .all => .ok always
  | .compare field op value =>
    match Column.ofField field with
    | .ok column => .ok (compare column op (Cell.ofJson value))
    | .error e => .error e
  | .allOf parts =>
    match ofPredicates parts with
    | .ok cs => .ok (allOf cs)
    | .error e => .error e
  | .anyOf parts =>
    match ofPredicates parts with
    | .ok cs => .ok (anyOf cs)
    | .error e => .error e
  | .complement part =>
    match ofPredicate part with
    | .ok c => .ok (complement c)
    | .error e => .error e

/-- The conditions of a list of predicates. -/
def ofPredicates : List Predicate → Except StoreError (List Condition)
  | [] => .ok []
  | p :: ps =>
    match ofPredicate p with
    | .error e => .error e
    | .ok c =>
      match ofPredicates ps with
      | .error e => .error e
      | .ok cs => .ok (c :: cs)

end

/-! ### Text and parameters -/

mutual

/-- The text of a condition, with a placeholder for each parameter. -/
def text : Condition → String
  | always => "1"
  | compare column op _ =>
    match op with
    | .ne => "(" ++ column.text ++ " IS NOT ?)"
    | op => "(" ++ column.text ++ " " ++ op.symbol ++ " ?)"
  | allOf [] => "1"
  | allOf (c :: cs) => "(" ++ text c ++ restText " AND " cs ++ ")"
  | anyOf [] => "0"
  | anyOf (c :: cs) => "(" ++ text c ++ restText " OR " cs ++ ")"
  | complement c => "(NOT COALESCE(" ++ text c ++ ", 0))"

/-- The texts after the first, each behind the connective. -/
def restText (connective : String) : List Condition → String
  | [] => ""
  | c :: cs => connective ++ text c ++ restText connective cs

end

mutual

/-- The parameters in the order of their placeholders. -/
def params : Condition → List Cell
  | always => []
  | compare _ _ param => [param]
  | allOf parts => paramsOf parts
  | anyOf parts => paramsOf parts
  | complement part => params part

/-- The parameters of a list of conditions. -/
def paramsOf : List Condition → List Cell
  | [] => []
  | c :: cs => params c ++ paramsOf cs

end

/-! ### Meaning -/

/-- Whether a cell and a parameter are in the relation of an operator. "Is not" is
always known; the others are unknown when one side is missing. -/
def related (op : Operator) (cell param : Cell) : Truth :=
  match op with
  | .ne => some (cell.order param ≠ .eq)
  | op => if cell.isMissing || param.isMissing then none else some (op.accepts (cell.order param))

mutual

/-- The truth of a condition on a row. -/
def eval (rowId : String) (fields : Fields) : Condition → Truth
  | always => some true
  | compare column op param =>
    related op (column.cell rowId fields) (column.adapt param)
  | allOf parts => evalAll rowId fields parts
  | anyOf parts => evalAny rowId fields parts
  | complement part => some (!(eval rowId fields part).getD false)

/-- The truth of a conjunction. -/
def evalAll (rowId : String) (fields : Fields) : List Condition → Truth
  | [] => some true
  | c :: cs => (eval rowId fields c).and (evalAll rowId fields cs)

/-- The truth of a disjunction. -/
def evalAny (rowId : String) (fields : Fields) : List Condition → Truth
  | [] => some false
  | c :: cs => (eval rowId fields c).or (evalAny rowId fields cs)

end

/-- Whether a row is selected: the condition is known to be true. -/
def selects (c : Condition) (rowId : String) (fields : Fields) : Bool :=
  eval rowId fields c = some true

theorem Truth.and_assoc (a b c : Truth) : (a.and b).and c = a.and (b.and c) := by
  rcases a with _ | _ | _ <;> rcases b with _ | _ | _ <;> rcases c with _ | _ | _ <;> rfl

theorem Truth.or_assoc (a b c : Truth) : (a.or b).or c = a.or (b.or c) := by
  rcases a with _ | _ | _ <;> rcases b with _ | _ | _ <;> rcases c with _ | _ | _ <;> rfl

/-- The conjunction of two lists is the conjunction of their conjunctions. -/
theorem evalAll_append (rowId : String) (fields : Fields) (as bs : List Condition) :
    evalAll rowId fields (as ++ bs)
      = Truth.and (evalAll rowId fields as) (evalAll rowId fields bs) := by
  induction as with
  | nil => rcases h : evalAll rowId fields bs with _ | _ | _ <;> simp [evalAll, Truth.and, h]
  | cons a as ih => rw [List.cons_append, evalAll, evalAll, ih, Truth.and_assoc]

/-- The disjunction of two lists is the disjunction of their disjunctions. -/
theorem evalAny_append (rowId : String) (fields : Fields) (as bs : List Condition) :
    evalAny rowId fields (as ++ bs)
      = Truth.or (evalAny rowId fields as) (evalAny rowId fields bs) := by
  induction as with
  | nil => rcases h : evalAny rowId fields bs with _ | _ | _ <;> simp [evalAny, Truth.or, h]
  | cons a as ih => rw [List.cons_append, evalAny, evalAny, ih, Truth.or_assoc]

end Condition

end Replica
