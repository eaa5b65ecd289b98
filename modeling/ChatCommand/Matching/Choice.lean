import ChatCommand.Matching.Attempt
import ChatCommand.Usage.Parser

/-! # Choosing among usages

Usages are declared in order and tried from the last to the first. The first that accepts the input
wins; if none does, the failure of the one tried last is reported.
-/

namespace ChatCommand

/-- Usages in the order of their declaration, each with its handler. -/
structure Usages (α : Type) where
  entries : List (Usage × α)

/-- The answer of a list of usages to an input. -/
inductive Outcome (α : Type) where
  | success (handler : α) (matched : Matched)
  | failure (failure : Failure)
  | empty

namespace Usages

variable {α : Type}

def empty : Usages α := ⟨[]⟩

def add (usages : Usages α) (pattern : Text) (handler : α) :
    Except Usage.PatternError (Usages α) := do
  let usage ← Usage.ofPattern pattern
  return ⟨usages.entries ++ [(usage, handler)]⟩

/-- Tries usages in the given order; `failed` is the failure of the one tried before. -/
def findFrom (failed : Outcome α) (items : List Text) (text : Text) :
    List (Usage × α) → Outcome α
  | [] => failed
  | (usage, handler) :: entries =>
    match usage.attempt items text with
    | .ok matched => .success handler matched
    | .error failure => findFrom (.failure failure) items text entries

def find (usages : Usages α) (items : List Text) (text : Text) : Outcome α :=
  findFrom .empty items text usages.entries.reverse

end Usages

namespace Outcome

variable {α : Type}

def success? : Outcome α → Option (α × Matched)
  | success handler matched => some (handler, matched)
  | _ => none

def failure? : Outcome α → Option Failure
  | failure f => some f
  | _ => none

end Outcome

namespace Usages

variable {α β γ : Type}

/-- The answer of the usage that accepts, and the report of the failure if none does. -/
def parse (usages : Usages α) (items : List Text) (text : Text) (onSuccess : α → Matched → β)
    (onError : Failure → γ) : Option β × Option γ :=
  let outcome := usages.find items text
  (outcome.success?.map fun (handler, matched) => onSuccess handler matched,
    outcome.failure?.map onError)

def dispatch (usages : Usages (Matched → β)) (items : List Text) (text : Text) : Option β :=
  (usages.parse items text (fun handler matched => handler matched) id).1

def map (f : α → β) (usages : Usages α) : Usages β :=
  ⟨usages.entries.map fun (usage, handler) => (usage, f handler)⟩

end Usages

end ChatCommand
