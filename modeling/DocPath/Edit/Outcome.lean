import DocPath.Value.Json

/-!
# Outcomes of edits

What an edit did to the document. Making a field and writing over one are kept apart,
so that whoever tracks changes can tell them from each other. An edit of a container of
the wrong shape is rejected.
-/

namespace DocPath

/-- Why a container does not allow an edit, with the key or what was found instead. -/
inductive StructuralFault where
  | addToList (key : Option Value)
  | addToUndefined (key : Option Value)
  | appendToNonList (found : Option Value)
  | invalidIndex (key : Option Value) (length : Nat)
  | invalidKey (key : Option Value)
  | notAContainer (key : Option Value) (found : Value)

structure StructuralError where
  path : String
  fault : StructuralFault

namespace StructuralError

/-- A key as JSON text. -/
def keyText : Option Value → String
  | some key => key.text
  | none => "undefined"

def typeText : Option Value → String
  | some v => v.typeName
  | none => "undefined"

def kind (e : StructuralError) : String :=
  match e.fault with
  | .addToList _ => "add_to_list"
  | .addToUndefined _ => "add_to_undefined"
  | .appendToNonList _ => "append_to_non_list"
  | .invalidIndex .. => "invalid_index"
  | .invalidKey _ => "invalid_key"
  | .notAContainer .. => "not_a_container"

def message (e : StructuralError) : String :=
  match e.fault with
  | .addToList key =>
    "can't add field " ++ keyText key ++ " to list at '" ++ e.path ++ "'"
  | .addToUndefined key =>
    "can't add field " ++ keyText key ++ " to undefined value at '" ++ e.path ++ "'"
  | .appendToNonList found =>
    "can only append to a list, '" ++ e.path ++ "' is " ++ typeText found
  | .invalidIndex key length =>
    keyText key ++ " is not a valid index for list of length " ++ Numeral.text length ++
      " at '" ++ e.path ++ "'"
  | .invalidKey key =>
    keyText key ++ " can't be used as a field name at '" ++ e.path ++ "'"
  | .notAContainer key found =>
    "can't set field " ++ keyText key ++ " on " ++ found.typeName ++ " at '" ++ e.path ++ "'"

end StructuralError

inductive Outcome where
  | created (key : Value)
  | overwritten (key : Value)
  | appended (index : Nat)
  | removed (key : Value)
  /-- There was nothing to do. -/
  | ignored
  | rejected (error : StructuralError)

namespace Outcome

/-- Whether the document was changed. -/
def isApplied : Outcome → Bool
  | .ignored | .rejected _ => false
  | _ => true

def isRejected : Outcome → Bool
  | .rejected _ => true
  | _ => false

end Outcome

end DocPath
