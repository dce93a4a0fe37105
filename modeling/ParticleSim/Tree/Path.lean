import ParticleSim.Text.Escaped
import ParticleSim.Tree.Node

namespace ParticleSim

inductive Step where
  | key (name : String)
  | index (position : Nat)
  deriving DecidableEq, Repr

abbrev Path := List Step

namespace Path

def root : Path := []

def key (path : Path) (name : String) : Path :=
  path ++ [.key name]

def index (path : Path) (position : Nat) : Path :=
  path ++ [.index position]

/-- A key that is shown as it is: not empty, of letters, digits and `_`, `-`, `$`. -/
def isPlainKey (name : List Char) : Bool :=
  !name.isEmpty && name.all fun c =>
    CharClass.isAlphanumeric c || c == '_' || c == '-' || c == '$'

/-- A step, where `first` says that nothing stands before it. -/
def stepText (first : Bool) : Step → List Char
  | .key name =>
    if isPlainKey name.toList then (if first then [] else ['.']) ++ name.toList
    else '[' :: Escaped.quoted name.toList ++ [']']
  | .index position => '[' :: Decimal.digitsOf position ++ [']']

def characters : Path → List Char
  | [] => "(root)".toList
  | step :: rest => stepText true step ++ rest.flatMap (stepText false)

def text (path : Path) : String :=
  String.ofList path.characters

end Path

def Step.compare : Step → Step → Ordering
  | .key a, .key b => Ord.compare a b
  | .key _, .index _ => .lt
  | .index _, .key _ => .gt
  | .index a, .index b => Ord.compare a b

/-- Steps are compared from the left; a shorter path comes before its extensions. -/
def Path.compare : Path → Path → Ordering
  | [], [] => .eq
  | [], _ :: _ => .lt
  | _ :: _, [] => .gt
  | a :: as, b :: bs => (a.compare b).then (Path.compare as bs)

def Node.at? : Path → Node → Option Node
  | [], node => some node
  | .key name :: rest, node => (node.child? name).bind (at? rest)
  | .index position :: rest, node => (node.items?.bind (·[position]?)).bind (at? rest)

end ParticleSim
