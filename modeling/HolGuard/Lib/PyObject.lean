import Mathlib
/-!
# Python objects read from JSON

The values `json.loads` builds and a program inspects with `isinstance` and `dict.get`.  A finite float is the rational
it denotes.
-/
namespace Lib

inductive PyObject where
  | none
  | bool (b : Bool)
  | int (i : Int)
  | float (q : ℚ)
  | str (s : String)
  | list (items : List PyObject)
  | dict (entries : List (String × PyObject))

namespace PyObject

def ofText : Option String → PyObject
  | .none => .none
  | .some s => .str s

def ofInt? : Option Int → PyObject
  | .none => .none
  | .some i => .int i

/-- `isinstance(value, str)`. -/
def text? : PyObject → Option String
  | .str s => some s
  | _ => Option.none

def nonEmptyText? : PyObject → Option String
  | .str s => if s = "" then Option.none else some s
  | _ => Option.none

/-- `isinstance(value, int) and not isinstance(value, bool)`. -/
def int? : PyObject → Option Int
  | .int i => some i
  | _ => Option.none

def isNone : PyObject → Bool
  | .none => true
  | _ => false

/-- `isinstance(value, dict)`. -/
def dict? : PyObject → Option (List (String × PyObject))
  | .dict entries => some entries
  | _ => Option.none

/-- `isinstance(value, list)`. -/
def list? : PyObject → Option (List PyObject)
  | .list items => some items
  | _ => Option.none

def texts : PyObject → List String
  | .list items => items.filterMap text?
  | _ => []

/-- `==` of two values of which one is no list and no dictionary. -/
def scalarEq : PyObject → PyObject → Bool
  | .none, .none => true
  | .str a, .str b => a == b
  | a, b =>
    match number? a, number? b with
    | some p, some q => p == q
    | _, _ => false
where
  number? : PyObject → Option ℚ
    | .bool b => some (if b then 1 else 0)
    | .int i => some i
    | .float q => some q
    | _ => Option.none

theorem text?_eq_some {v : PyObject} {s : String} : v.text? = some s ↔ v = .str s := by cases v <;> simp [text?]

theorem dict?_eq_some {v : PyObject} {entries : List (String × PyObject)} :
    v.dict? = some entries ↔ v = .dict entries := by cases v <;> simp [dict?]

theorem scalarEq_str {s : String} {v : PyObject} : scalarEq (.str s) v = true ↔ v = .str s := by
  cases v with
  | str t =>
    rw [scalarEq, beq_iff_eq, PyObject.str.injEq]
    exact eq_comm
  | _ => simp [scalarEq, scalarEq.number?]

end PyObject

/-- A Python mapping with text keys, as `dict.get` reads it. -/
abbrev PyDict := List (String × PyObject)

namespace PyDict

/-- `mapping.get(key)`. -/
def get (d : PyDict) (key : String) : PyObject := (d.lookup key).getD .none

/-- `key in mapping`. -/
def has (d : PyDict) (key : String) : Bool := (d.lookup key).isSome

theorem get_cons (name key : String) (v : PyObject) (d : PyDict) :
    get ((name, v) :: d) key = if key = name then v else get d key := by
  unfold get
  rw [List.lookup_cons]
  by_cases h : key = name
  · simp [h]
  · rw [if_neg h, beq_false_of_ne h]

end PyDict
end Lib
