namespace ParticleSim

abbrev Fields (α : Type) := List (String × α)

namespace Fields

variable {α : Type}

def get? (key : String) : Fields α → Option α
  | [] => none
  | (k, value) :: rest => if k = key then some value else get? key rest

def contains (key : String) (fields : Fields α) : Bool :=
  (fields.get? key).isSome

def keys (fields : Fields α) : List String :=
  fields.map (·.1)

/-- Replace the value of a key where it stands, or append a new entry. -/
def insert (key : String) (value : α) : Fields α → Fields α
  | [] => [(key, value)]
  | (k, old) :: rest => if k = key then (k, value) :: rest else (k, old) :: insert key value rest

def getThenInsert? (key : String) (value : α) : Fields α → Option α × Fields α
  | [] => (none, [(key, value)])
  | (k, old) :: rest =>
    if k = key then (some old, (k, value) :: rest)
    else
      let (replaced, rest) := getThenInsert? key value rest
      (replaced, (k, old) :: rest)

def ofList (entries : List (String × α)) : Fields α :=
  entries.foldl (fun fields entry => insert entry.1 entry.2 fields) []

def insertSorted (key : String) (value : α) : Fields α → Fields α
  | [] => [(key, value)]
  | (k, old) :: rest =>
    if k = key then (k, value) :: rest
    else if key < k then (key, value) :: (k, old) :: rest
    else (k, old) :: insertSorted key value rest

/-- The entries in ascending order of their keys; of two with one key the later counts. -/
def sorted (entries : List (String × α)) : Fields α :=
  entries.foldl (fun fields entry => insertSorted entry.1 entry.2 fields) []

end Fields
end ParticleSim
