import ChatCommand.Config.Value

/-! # Sections of TOML

A document is a list of sections, each with the path of the header over it, and a section is a list
of values, each with the path of its key. Both nest by their paths.
-/

namespace ChatCommand.Config.Toml

/-- What a key of a section has: a value, or a table that is spelled by longer keys, one value at a
time. -/
inductive Item where
  | value (v : Value)
  | keyed (items : List (Text × Item))

mutual

def Item.toValue : Item → Value
  | .value v => v
  | .keyed items => .table (Item.entries items)

def Item.entries : List (Text × Item) → List (Text × Value)
  | [] => []
  | (key, item) :: items => (key, item.toValue) :: Item.entries items

end

/-- Adds a value to items. A key of one part may be there already; a longer one extends the first
item of its first part, which must not be a value. -/
def Item.add (v : Value) : (key : List Text) → List (Text × Item) → Option (List (Text × Item))
  | [], _ => none
  | [part], items => some (items ++ [(part, .value v)])
  | part :: key, items =>
    match items.lookup part with
    | none => (Item.add v key []).map fun inner => items ++ [(part, .keyed inner)]
    | some (.value _) => none
    | some (.keyed inner) => (Item.add v key inner).map fun inner =>
      let i := items.findIdx (·.1 = part)
      items.set i (part, .keyed inner)

structure Section where
  path : List Text
  /-- Whether the header over the section adds a table to a list of tables. -/
  appends : Bool
  items : List (Text × Item)

/-- Takes a part off the path, if it starts with that part. -/
def Section.inside? (part : Text) (s : Section) : Option Section :=
  match s.path with
  | first :: path => if first = part then some { s with path } else none
  | [] => none

/-- What stands at a part of the path, given the sections there: a table, or a list that each
appending section opens another table of. A table is read by `table`. -/
def Section.nest (table : List Section → Option Value) (sections : List Section) : Option Value :=
  let isHead := fun s : Section => s.path.isEmpty
  if sections.any (fun s => isHead s && s.appends) then
    if sections.head?.all isHead && sections.all (fun s => !isHead s || s.appends) then
      .list <$> (sections.splitBy fun _ s => !isHead s).mapM table
    else none
  else table sections

/-- The table that sections make up. No two of them are for the table itself. -/
def Section.table : (depth : Nat) → List Section → Option Value
  | 0, _ => none
  | depth + 1, sections => do
    let own := sections.filter (·.path.isEmpty)
    if 1 < own.length then none
    else
      let parts := (sections.filterMap (·.path.head?)).eraseDups
      let inner ← parts.mapM fun part => do
        return (part, ← Section.nest (Section.table depth) (sections.filterMap (·.inside? part)))
      return .table (own.flatMap (Item.entries ·.items) ++ inner)

def Section.document (sections : List Section) : Option Value :=
  Section.table ((sections.map (·.path.length)).foldl max 0 + 1) sections

end ChatCommand.Config.Toml
