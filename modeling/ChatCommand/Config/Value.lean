import ChatCommand.Text.Basic

/-! # Configuration values

The values that a configuration is read from, whatever notation they were written in.
-/

namespace ChatCommand.Config

/-- No setting is a number, so the value of one is not kept. An inline table is one that stands in a
single place of its document, as a value of its own; only some notations tell it from a table. -/
inductive Value where
  | null
  | bool (b : Bool)
  | number
  | text (t : Text)
  | list (values : List Value)
  | table (entries : List (Text × Value))
  | inline (entries : List (Text × Value))
  deriving Repr, Inhabited

inductive ReadError where
  | missingField (name : Text)
  | repeatedField (name : Text)
  | unknownVariant (word : Text) (expected : List Text)
  | invalidId (text : Text)
  | tooShort (length : Nat) (record : Text) (expected : Nat)
  | tooLong (length : Nat)
  | notSingle
  | wrongShape
  deriving DecidableEq, Repr

/-- A value of the wrong shape is not described further. -/
def ReadError.message? : ReadError → Option Text
  | missingField name => some ("missing field `".toList ++ name ++ "`".toList)
  | repeatedField name => some ("duplicate field `".toList ++ name ++ "`".toList)
  | unknownVariant word expected =>
    let ticked := fun w => '`' :: w ++ ['`']
    some ("unknown variant ".toList ++ ticked word ++ ", expected one of ".toList ++
      ", ".toList.intercalate (expected.map ticked))
  | invalidId t => some ("not a valid id: ".toList ++ t)
  | tooShort length record expected =>
    some ("invalid length ".toList ++ Nat.toDigits 10 length ++ ", expected struct ".toList ++
      record ++ " with ".toList ++ Nat.toDigits 10 expected ++ " elements".toList)
  | tooLong length =>
    some ("invalid length ".toList ++ Nat.toDigits 10 length ++
      ", expected fewer elements in array".toList)
  | notSingle => some "invalid value: map, expected map with a single key".toList
  | wrongShape => none

namespace Value

def asText : Value → Except ReadError Text
  | text t => .ok t
  | _ => .error .wrongShape

def asBool : Value → Except ReadError Bool
  | bool b => .ok b
  | _ => .error .wrongShape

def asList {α : Type} (item : Value → Except ReadError α) : Value → Except ReadError (List α)
  | list values => values.mapM item
  | _ => .error .wrongShape

def asOption {α : Type} (item : Value → Except ReadError α) : Value → Except ReadError (Option α)
  | null => .ok none
  | v => some <$> item v

/-- The fields of a record by name, and what it means that one of them is missing. -/
structure Fields where
  entries : List (Text × Value)
  missing : Text → ReadError

/-- Reads a record from the entries of a table, in which other fields are ignored however often they
occur. -/
def ofEntries {α : Type} (names : List Text) (read : Fields → Except ReadError α)
    (entries : List (Text × Value)) : Except ReadError α :=
  match names.find? fun name => 1 < (entries.map (·.1)).count name with
  | some name => .error (.repeatedField name)
  | none => read ⟨entries, .missingField⟩

/-- Reads a record from a table, or from a list of its fields in order. -/
def asRecord {α : Type} (record : Text) (names : List Text) (read : Fields → Except ReadError α) :
    Value → Except ReadError α
  | table entries => ofEntries names read entries
  | inline entries => ofEntries names read entries
  | list values => do
    let short := fun name => .tooShort (names.idxOf name) record names.length
    let found ← read ⟨names.zip values, short⟩
    if names.length < values.length then .error (.tooLong values.length) else return found
  | _ => .error .wrongShape

def Fields.required {α : Type} (fields : Fields) (name : Text)
    (read : Value → Except ReadError α) : Except ReadError α :=
  match fields.entries.lookup name with
  | some v => read v
  | none => .error (fields.missing name)

def Fields.optional {α : Type} (fields : Fields) (name : Text) (default : α)
    (read : Value → Except ReadError α) : Except ReadError α :=
  match fields.entries.lookup name with
  | some v => read v
  | none => .ok default

end Value

end ChatCommand.Config
