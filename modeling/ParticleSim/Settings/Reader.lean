import ParticleSim.Outline.Line
import ParticleSim.Outline.Plain
import ParticleSim.Settings.Basic
/-!
Reading settings from a text: two tables, `stepper` and `session`, of numbers. A table is written as
lines `key: value` or between braces. Fields that are not named keep their defaults; a field that is
unknown or named twice makes the text unreadable.
-/
namespace ParticleSim

inductive SettingsError where
  | unreadable
  | invalid (fault : SettingsFault)
  deriving DecidableEq, Repr

def SettingsError.message : SettingsError → String
  | .unreadable => "YAML error: unreadable settings"
  | .invalid fault => fault.message

namespace Settings

open Outline (Line skipSpaces trimEnd)

structure Content where
  text : List Char
  below : List Line
  deriving DecidableEq, Repr

def Content.joined (content : Content) : List Char :=
  trimEnd (skipSpaces (content.text ++ content.below.flatMap fun line => ' ' :: line.text))

abbrev Entries := List (String × Content)

def blockEntries? (indent : Nat) : List Line → Option (List Line × Entries)
  | [] => some ([], [])
  | line :: rest => do
    let (below, entries) ← blockEntries? indent rest
    if indent < line.indent then return (line :: below, entries)
    else if line.indent < indent then none
    else
      match line.entry? with
      | .ok (some entry) => return ([], (entry.key, ⟨entry.value, below⟩) :: entries)
      | _ => none

/-- The pieces between the commas of a table in braces, from behind its opening brace on. Commas of
inner tables do not count, and nothing follows the closing brace. -/
def pieces? : Nat → List Char → Option (List (List Char))
  | _, [] => none
  | depth, c :: rest =>
    if c = '}' && depth = 0 then if rest.isEmpty then some [[]] else none
    else if c = ',' && depth = 0 then (pieces? depth rest).map ([] :: ·)
    else
      let depth := if c = '{' then depth + 1 else if c = '}' then depth - 1 else depth
      match pieces? depth rest with
      | some (piece :: pieces) => some ((c :: piece) :: pieces)
      | _ => none

def flowEntry? (piece : List Char) : Option (String × Content) :=
  match Line.entry? ⟨0, 0, trimEnd (skipSpaces piece)⟩ with
  | .ok (some entry) => some (entry.key, ⟨entry.value, []⟩)
  | _ => none

def dropEmptyLast (pieces : List (List Char)) : List (List Char) :=
  match pieces.getLast? with
  | some last => if (skipSpaces last).isEmpty then pieces.dropLast else pieces
  | none => pieces

def Content.entries? (content : Content) : Option Entries :=
  match content.joined with
  | [] => some []
  | '{' :: rest => do
    let pieces ← pieces? 0 rest
    (dropEmptyLast pieces).mapM flowEntry?
  | _ =>
    if content.text.isEmpty then
      (blockEntries? ((content.below.head?.map Line.indent).getD 0) content.below).map (·.2)
    else none

def Content.table? (content : Content) : Option Entries := do
  let entries ← content.entries?
  if (entries.map (·.1)).Nodup then return entries else none

def magnitude? (text : List Char) : Option Float :=
  let word := String.ofList text
  if word ∈ Outline.Plain.infinityWords then some Binary64.infinity
  else if word ∈ Outline.Plain.negativeInfinityWords then some (-Binary64.infinity)
  else if word ∈ Outline.Plain.nanWords then some Binary64.nan
  else
    (Literal.ofText? text).bind fun literal =>
      if literal.toFloat.isFinite then some literal.toFloat else none

def digits? (base : Nat) (text : List Char) : Option Nat :=
  if text.isEmpty then none
  else text.foldlM (fun total c =>
    (hexValue? c).bind fun d => if d < base then some (base * total + d) else none) 0

/-- A natural number up to a limit: decimal without leading zeros, hexadecimal, octal or binary. -/
def count? (limit : Nat) (text : List Char) : Option Nat :=
  let unsigned := match text with
    | '+' :: rest => rest
    | rest => rest
  let value := match unsigned with
    | '0' :: 'x' :: rest => digits? 16 rest
    | '0' :: 'o' :: rest => digits? 8 rest
    | '0' :: 'b' :: rest => digits? 2 rest
    | ['0'] => some 0
    | '0' :: _ => none
    | rest => digits? 10 rest
  value.filter (· ≤ limit)

def tuningField? (tuning : Tuning) (field : String) (value : List Char) : Option Tuning :=
  match field with
  | "stability_ceiling" => return { tuning with stabilityCeiling := ← magnitude? value }
  | "min_distance" => return { tuning with minDistance := ← magnitude? value }
  | _ => none

def pacingField? (pacing : Pacing) (field : String) (value : List Char) : Option Pacing :=
  match field with
  | "tick_rate_hz" => return { pacing with tickRate := ← magnitude? value }
  | "history_len" => return { pacing with historyLength := ← count? (UInt64.size - 1) value }
  | "max_substeps" => return { pacing with maxSubsteps := ← count? (UInt32.size - 1) value }
  | _ => none

def fields? {α : Type} (field? : α → String → List Char → Option α) (defaults : α)
    (content : Content) : Option α := do
  let entries ← content.table?
  entries.foldlM (fun values entry => field? values entry.1 entry.2.joined) defaults

def section? (settings : Settings) (name : String) (content : Content) : Option Settings :=
  match name with
  | "stepper" => return { settings with tuning := ← fields? tuningField? {} content }
  | "session" => return { settings with pacing := ← fields? pacingField? {} content }
  | _ => none

def ofLines? (lines : List Line) : Option Settings := do
  let entries ← (⟨[], lines⟩ : Content).table?
  entries.foldlM (fun settings entry => section? settings entry.1 entry.2) {}

def ofText (text : String) : Except SettingsError Settings :=
  match Line.ofText text.toList with
  | .error _ => .error .unreadable
  | .ok lines =>
    match ofLines? lines with
    | none => .error .unreadable
    | some settings =>
      match settings.fault? with
      | some fault => .error (.invalid fault)
      | none => .ok settings

end Settings
end ParticleSim
