import PluginHost.Plugin.Descriptor
import PluginHost.Serve
import PluginHost.Text.Numeral

/-!
# Choosing a plugin

The user chooses among numbered plugins by typing a number.  Only the first line of the input
counts, without the blanks around it; an empty one cancels.
-/

namespace PluginHost.Manage

open Text

/-- Why a choice is refused. -/
inductive ChoiceError where
  | invalid (choice : String)
  /-- The line is no UTF-8. -/
  | invalidText
  deriving DecidableEq, Repr

/-- The line of a plugin with a number. -/
def choiceLine (n : Nat) (d : Descriptor) : String :=
  s!"  {n}) " ++ d.name ++ " " ++ d.version ++ " - " ++ d.description ++ "\n"

/-- What the user is asked. -/
def choicePrompt (plugins : List Descriptor) : String :=
  "Plugin to remove:\n" ++
    String.join (plugins.zipIdx.map fun (d, i) => choiceLine (i + 1) d) ++
    s!"Select [1-{plugins.length}] (empty to cancel): "

/-- The place that a number stands for among `count` places. -/
def placeOf (count : Nat) (choice : List Char) : Option Nat :=
  match readNat maxUInt64 choice with
  | some (n + 1) => if n + 1 ≤ count then some n else none
  | _ => none

/-- What the input chooses among `count` plugins. -/
def choose (count : Nat) (input : Bytes) : Except ChoiceError (Option Nat) :=
  match chars? ((linesOf input).headD []) with
  | none => .error .invalidText
  | some line =>
      let choice := trimChars line
      if choice.isEmpty then .ok none
      else
        match placeOf count choice with
        | some i => .ok (some i)
        | none => .error (.invalid (String.ofList choice))

end PluginHost.Manage
