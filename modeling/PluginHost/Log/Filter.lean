import PluginHost.Bytes
import PluginHost.Log
import PluginHost.Text.Blank
import PluginHost.Text.Numeral

/-!
# Which log records are shown

A filter is a list of directives with commas between.  A directive is a level, which holds for all
records; or the start of the names of sources, with an equals sign and a level for the records of
these.  Of the directives that fit a source, the one with the longest start decides
(`LogFilter.rankFor`), and of equal ones the last.  A filter without directives shows errors.
-/

namespace PluginHost

open Text

/-- Why a directive cannot be read. -/
inductive DirectiveError where
  | malformed
  | unknownLevel
  deriving DecidableEq, Repr

/-- The wording of each cause. -/
def DirectiveError.message : DirectiveError → String
  | .malformed => "invalid filter directive"
  | .unknownLevel =>
      "error parsing level filter: expected one of \"off\", \"error\", \"warn\", \"info\", " ++
        "\"debug\", \"trace\", or a number 0-5"

/-- A directive: up to which rank the records of sources are shown whose names start so. -/
structure LogDirective where
  source : List Char
  rank : Nat
  deriving DecidableEq, Repr

/-- A filter of log records. -/
structure LogFilter where
  directives : List LogDirective
  /-- Some directives are about spans.  There are none, so these show nothing. -/
  hasSpans : Bool := false
  deriving DecidableEq, Repr

/-- A letter of the first 128 characters as a small letter. -/
def smallAscii (c : Char) : Char := if 'A' ≤ c ∧ c ≤ 'Z' then Char.ofNat (c.toNat + 32) else c

/-- The rank of a level, which is given by its name or by its number. -/
def rankOf? (cs : List Char) : Option Nat :=
  match readNat maxUInt64 cs with
  | some n => if n ≤ 5 then some n else none
  | none =>
      match String.ofList (cs.map smallAscii) with
      | "off" => some 0
      | "error" => some 1
      | "warn" => some 2
      | "info" => some 3
      | "debug" => some 4
      | "trace" => some 5
      | "" => some 1
      | _ => none

/-- A directive may start with a character. -/
def startsDirective (c : Char) : Bool :=
  isDigit c || c.isAlpha || c == '-' || c == ':' || c == '_' || c.toNat ≥ 128

/-- What stands behind the first bracket of a directive is about a span. -/
def isSpanPart (cs : List Char) : Bool :=
  match cs.dropWhile (· != ']') with
  | [] => false
  | _ :: rest =>
      match rest with
      | [] => true
      | '=' :: level => level.isEmpty || (rankOf? level).isSome
      | _ => false

/-- Reads one directive.  One about spans gives nothing. -/
def LogDirective.parse (cs : List Char) : Except DirectiveError (Option LogDirective) :=
  let isMark (c : Char) : Bool := c == '=' || c == '['
  let name := cs.takeWhile (!isMark ·)
  match trimChars cs with
  | [] => .error .malformed
  | first :: _ =>
      if first == '[' then if isSpanPart cs then .ok none else .error .malformed
      else if !startsDirective first then .error .malformed
      else
        match cs.dropWhile (!isMark ·) with
        | [] =>
            match rankOf? cs with
            | some rank => .ok (some ⟨[], rank⟩)
            | none => .ok (some ⟨cs, 5⟩)
        | '=' :: level =>
            if cs.head? != some first then .error .unknownLevel
            else if level.isEmpty then .ok (some ⟨name, 5⟩)
            else
              match rankOf? level with
              | some rank => .ok (some ⟨name, rank⟩)
              | none => .error .unknownLevel
        | _ :: spans => if isSpanPart spans then .ok none else .error .malformed

namespace LogFilter

/-- The filter of directives that have been read. -/
def ofDirectives (read : List (Option LogDirective)) : LogFilter :=
  ⟨read.filterMap id, read.contains none⟩

/-- The directives of a text. -/
def parts (s : String) : List (List Char) := (splitOn ',' s.toList).filter (!·.isEmpty)

/-- Reads a filter all of whose directives have to be well formed. -/
def parse (s : String) : Except DirectiveError LogFilter :=
  ((parts s).mapM LogDirective.parse).map ofDirectives

/-- Reads a filter without the directives that are malformed, and tells of these. -/
def parseLenient (s : String) : LogFilter × List String :=
  let read := (parts s).map fun cs => (cs, LogDirective.parse cs)
  let complaint : List Char × Except DirectiveError (Option LogDirective) → Option String
    | (cs, .error e) => some ("ignoring \x60" ++ String.ofList cs ++ "\x60: " ++ e.message)
    | (_, .ok _) => none
  (ofDirectives (read.filterMap fun (_, r) => r.toOption), read.filterMap complaint)

/-- The directive that decides for a source, among those that have been looked at. -/
def better (source : List Char) (best : Option LogDirective) (d : LogDirective) :
    Option LogDirective :=
  if !d.source.isPrefixOf source then best
  else
    match best with
    | some b => if d.source.length < b.source.length then some b else some d
    | none => some d

/-- Up to which rank the records of a source are shown. -/
def rankFor (f : LogFilter) (source : String) : Nat :=
  if f.directives.isEmpty && !f.hasSpans then LogLevel.error.rank
  else ((f.directives.foldl (better source.toList) none).map (·.rank)).getD 0

/-- A record is shown. -/
def shows (f : LogFilter) (r : LogRecord) : Bool := r.level.rank ≤ f.rankFor r.source.name

end LogFilter

end PluginHost
