import Mathlib.Data.String.Basic
import Mosschat.Library.SortedMap

/-!
Owns JSON values, objects as maps in the order of their keys, the object made of named
fields, and the reads of a value that say which kind it is of.

Does not own the text of a value, nor numbers that are not unsigned integers, which are kept
as they are spelt.
-/

namespace Mosschat.Library

/-- A JSON value. -/
inductive Json where
  | null
  | bool (value : Bool)
  | number (value : UInt64)
  | otherNumber (text : String)
  | string (text : String)
  | array (items : List Json)
  | object (fields : List (String × Json))

namespace Json

/-- The named fields as a map, a later one in place of an earlier one of its name. -/
def collect (fields : List (String × Json)) : SortedMap String Json (· ≤ ·) :=
  fields.foldl (fun map field => map.upsert field.1 fun _ => field.2) SortedMap.empty

/-- The object of the named fields. -/
def ofFields (fields : List (String × Json)) : Json := .object (collect fields).entries

/-- The field of an object. -/
def get (key : String) : Json → Option Json
  | .object fields => (fields.find? fun field => field.1 = key).map Prod.snd
  | _ => none

def asStr : Json → Option String
  | .string text => some text
  | _ => none

def asU64 : Json → Option UInt64
  | .number value => some value
  | _ => none

def asBool : Json → Option Bool
  | .bool value => some value
  | _ => none

def asArray : Json → Option (List Json)
  | .array items => some items
  | _ => none

theorem get?_foldl_upsert (key : String) (fields : List (String × Json))
    (map : SortedMap String Json (· ≤ ·)) :
    (fields.foldl (fun map field => map.upsert field.1 fun _ => field.2) map).get? key =
      (fields.reverse.lookup key).or (map.get? key) := by
  induction fields generalizing map with
  | nil => rfl
  | cons field rest ih =>
      rw [List.foldl_cons, ih, SortedMap.get?_upsert, List.reverse_cons,
        List.lookup_append, Option.or_assoc]
      congr 1
      show _ = (([(field.1, field.2)] : List (String × Json)).lookup key).or (map.get? key)
      rw [List.lookup_cons]
      by_cases isKey : key = field.1
      · simp [isKey]
      · have noKey : (key == field.1) = false := beq_false_of_ne isKey
        rw [if_neg isKey, noKey]
        rfl

/-- The last field of a name is the one read. -/
theorem get_ofFields (key : String) (fields : List (String × Json)) :
    get key (ofFields fields) = fields.reverse.lookup key := by
  show (collect fields).get? key = _
  rw [collect, get?_foldl_upsert]
  exact Option.or_none

end Json

end Mosschat.Library
