import PluginHost.FileAction
import PluginHost.Http
import PluginHost.Log

/-!
# Tasks on the world

Installing and downloading read and change files, send requests and write a log.  A task is a
computation on these three that may fail; what it did before it failed stays done.
-/

namespace PluginHost

/-- What tasks work on: the files, the client for requests with those that it was given, and the
log. -/
structure World where
  files : FileTree
  client : HttpClient
  requests : List HttpRequest := []
  log : List LogRecord := []

/-- A computation on the world that may fail. -/
abbrev Task (ε α : Type) := ExceptT ε (StateM World) α

namespace Task

variable {ε α : Type}

/-- Works on the files alone. -/
def onFiles (action : FileAction ε α) : Task ε α := fun w =>
  match action w.files with
  | (r, t) => (r, { w with files := t })

/-- Gives a request to the client. -/
def send (r : HttpRequest) : Task ε HttpReply := fun w =>
  (.ok (w.client w.requests r), { w with requests := w.requests ++ [r] })

/-- Adds a record to the log. -/
def note (record : LogRecord) : Task ε Unit := fun w =>
  (.ok (), { w with log := w.log ++ [record] })

/-- The same task with its failures told in other terms. -/
def wrapped {δ : Type} (wrap : δ → ε) (task : Task δ α) : Task ε α := fun w =>
  match task w with
  | (.ok a, w) => (.ok a, w)
  | (.error e, w) => (.error (wrap e), w)

end Task

end PluginHost
