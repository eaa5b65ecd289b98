import ChatCommand.Text.Basic

/-! # Paths

Where a path leads from a working directory that holds a single file, and the folders on the way to
it. Empty names and single points stay in a folder, and double points leave it.
-/

namespace ChatCommand.Path

def isStay (name : Text) : Bool := name == [] || name == ['.']

def isUp (name : Text) : Bool := name == ['.', '.']

/-- The names on a path that stays below the working directory. -/
def names (path : Text) : List Text := (Text.splitOn '/' path).filter (¬ isStay ·)

/-- The folder that the next name leads to, given the one where it stands. -/
def step? (file here : List Text) (name : Text) : Option (List Text) :=
  if isStay name then some here
  else if isUp name then if here = [] then none else some here.dropLast
  else if here.length + 1 < file.length ∧ (here ++ [name]).isPrefixOf file then
    some (here ++ [name])
  else none

/-- Whether a path leads to the file that another path names. -/
def leadsTo (path file : Text) : Bool :=
  let file := names file
  match (Text.splitOn '/' path).reverse with
  | [] => false
  | last :: folders =>
    path.head? != some '/' && !isUp last &&
      (folders.reverse.foldlM (step? file) []).any (· ++ [last] = file)

end ChatCommand.Path
