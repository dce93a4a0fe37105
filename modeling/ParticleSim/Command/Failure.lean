import ParticleSim.Number.Decimal

namespace ParticleSim

structure Failure where
  message : String
  causes : List String := []
  deriving DecidableEq, Repr

namespace Failure

def indented (width : Nat) (text : String) : List Char :=
  text.toList.flatMap fun c => if c = '\n' then c :: List.replicate width ' ' else [c]

def numberColumn (n : Nat) : List Char :=
  let digits := Decimal.digitsOf n
  List.replicate (5 - digits.length) ' ' ++ digits

def causeLines : List String → List (List Char)
  | [] => []
  | [cause] => [List.replicate 4 ' ' ++ indented 4 cause]
  | causes =>
    causes.zipIdx.map fun (cause, i) => numberColumn i ++ ':' :: ' ' :: indented 7 cause

def text (failure : Failure) : String :=
  let causes :=
    if failure.causes.isEmpty then []
    else "\n\nCaused by:".toList ++ (causeLines failure.causes).flatMap ('\n' :: ·)
  "Error: " ++ failure.message ++ String.ofList (causes ++ ['\n'])

end Failure
end ParticleSim
