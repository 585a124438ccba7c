import PluginHost.Manage.Install
import PluginHost.Plugin.Registry

/-!
# Failures of a run

A run that fails says why, and lists what has caused it, the nearest cause first.
-/

namespace PluginHost.CommandLine

open Archive Release Manage Rpc

/-- Why a run fails. -/
structure Failure where
  message : String
  causes : List String := []
  deriving DecidableEq, Repr

namespace Failure

/-- A failure with its cause. -/
def withCauses (cause : Failure) (message : String) : Failure :=
  ⟨message, cause.message :: cause.causes⟩

/-- A failure of the system. -/
def ofIo (e : IoError) : Failure := ⟨e.message, []⟩

/-- A failure of the configuration. -/
def ofConfig (e : ConfigError) : Failure :=
  match e with
  | .read _ cause | .io cause => (ofIo cause).withCauses e.message
  | _ => ⟨e.message, []⟩

/-- A failure to unpack. -/
def ofArchive (e : ArchiveError) : Failure :=
  match e with
  | .io cause => (ofIo cause).withCauses e.message
  | _ => ⟨e.message, []⟩

/-- A failure to fetch a release. -/
def ofRelease (e : ReleaseError) : Failure :=
  match e with
  | .io cause => (ofIo cause).withCauses e.message
  | _ => ⟨e.message, []⟩

/-- A failure to install, choose or remove. -/
def ofInstall (e : InstallError) : Failure :=
  match e with
  | .release cause => (ofRelease cause).withCauses e.message
  | .archive cause => (ofArchive cause).withCauses e.message
  | .remove _ cause | .io cause => (ofIo cause).withCauses e.message
  | _ => ⟨e.message, []⟩

/-- A failure of a plugin. -/
def ofInvocation (e : InvocationError) : Failure :=
  match e with
  | .transport (.io cause) | .transport (.connect _ cause) => (ofIo cause).withCauses e.message
  | _ => ⟨e.message, []⟩

/-- A text whose further lines are indented. -/
def indented (first indent : String) (text : String) : String :=
  first ++ ("\n" ++ indent).intercalate ((Text.splitOn '\n' text.toList).map String.ofList)

/-- The causes as they are listed.  They are numbered if there are several. -/
def causeLines : List String → List String
  | [] => []
  | [cause] => [indented "    " "    " cause]
  | causes => causes.zipIdx.map fun (cause, i) =>
      let number := toString i
      let pad := String.ofList (List.replicate (5 - number.length) ' ')
      indented (pad ++ number ++ ": ") "       " cause

/-- What is said of a failure. -/
def report (f : Failure) : String :=
  let causes := if f.causes.isEmpty then [] else "" :: "Caused by:" :: causeLines f.causes
  "\n".intercalate (("Error: " ++ f.message) :: causes) ++ "\n"

end Failure

end PluginHost.CommandLine
