import PluginHost.Bytes

/-!
# Requests over the network

A request asks for a URL with a few headers.  It is given to a client (`HttpClient`) that stands
outside of this program: it looks up names, makes connections, follows redirects, and in the end it
tells the status and the body that it has got, or that it has got nothing.
-/

namespace PluginHost

/-- A request for what stands at a URL. -/
structure HttpRequest where
  url : String
  accept : String
  authorization : Option String
  deriving DecidableEq, Repr

namespace HttpRequest

/-- How this program and the form of its requests are named in every request. -/
def agent : String := "sprig/0.1.0"
@[inherit_doc agent] def apiVersion : String := "2022-11-28"

end HttpRequest

/-- What a client has got in the end: a status, with a body unless that breaks off, or nothing. -/
inductive HttpReply where
  | broken
  | answered (status : Nat) (body : Option Bytes)
  deriving DecidableEq, Repr

/-- A client: what it gets for a request, which may depend on all that it was given before.  A
request that cannot be sent gets nothing.  When a server redirects it, asking at the new place is part
of getting the reply. -/
abbrev HttpClient := List HttpRequest → HttpRequest → HttpReply

namespace HttpClient

/-- A client that gets nothing. -/
def offline : HttpClient := fun _ _ => .broken

/-- A client that gets these replies in order, and nothing when they are used up. -/
def getting (replies : List HttpReply) : HttpClient := fun given _ =>
  replies.getD given.length .broken

end HttpClient

end PluginHost
