import PluginHost.Checksum.Sha256
import PluginHost.Release.Selection
import PluginHost.World

/-!
# Looking up and downloading releases

`latest` asks a server for the last release of a repository, `download` fetches the asset for this
system into a directory.  When the release publishes a checksum beside the asset, the bytes have
to agree with it before anything is written.
-/

namespace PluginHost.Release

open FileAction

/-- Why a release cannot be fetched. -/
inductive ReleaseError where
  /-- The request or its answer breaks, or the answer is malformed. -/
  | http
  | api (status : Nat) (message : String)
  | auth (message : String)
  | notFound (url : String)
  | noAsset (tag system : String)
  | checksum (asset expected actual : String)
  | io (error : IoError)
  deriving DecidableEq, Repr

/-- The wording of each cause. -/
def ReleaseError.message : ReleaseError → String
  | .http => "HTTP error"
  | .api status message => "GitHub API error: " ++ message ++ s!" (status: {status})"
  | .auth message => "Authentication failed: " ++ message
  | .notFound url => "Not found: " ++ url
  | .noAsset tag system => "Release " ++ tag ++ " has no asset for " ++ system
  | .checksum asset expected actual =>
      "Checksum mismatch for " ++ asset ++ ": expected " ++ expected ++ ", got " ++ actual
  | .io error => "IO error: " ++ error.message

/-- The system and the machine that assets are chosen for. -/
def thisSystem : String := "linux"
@[inherit_doc thisSystem] def thisMachine : String := "x86_64"

/-- The root under which releases are published. -/
def defaultRoot : String := "https://api.github.com"

/-- Where releases are asked for, and with which token. -/
structure Service where
  root : String
  token : Option String := none
  deriving DecidableEq, Repr

/-- A service without the slashes at the end of its root. -/
def Service.at (root : String) (token : Option String) : Service :=
  ⟨String.ofList (root.toList.reverse.dropWhile (· == '/')).reverse, token⟩

/-- The message of an answer that is no success. -/
def messageOf (body : Option Bytes) : String := (body.map lossyText).getD "Unknown error"

/-- What an answer means: its body, or why there is none. -/
def bodyOf (url : String) : HttpReply → Except ReleaseError Bytes
  | .broken => .error .http
  | .answered status body =>
      if 200 ≤ status && status < 300 then
        match body with
        | some data => .ok data
        | none => .error .http
      else if status == 401 || status == 403 then .error (.auth (messageOf body))
      else if status == 404 then .error (.notFound url)
      else .error (.api status (messageOf body))

/-- Fetches what stands at a URL. -/
def Service.fetch (s : Service) (url accept : String) : Task ReleaseError Bytes := do
  let reply ← Task.send ⟨url, accept, s.token.map ("Bearer " ++ ·)⟩
  ExceptT.mk (pure (bodyOf url reply))

/-- The URL of the last release of a repository. -/
def Service.latestUrl (s : Service) (owner repository : String) : String :=
  s.root ++ "/repos/" ++ owner ++ "/" ++ repository ++ "/releases/latest"

/-- The release that a body describes. -/
def ofBody (body : Bytes) : Except ReleaseError Release :=
  match (text? body).map Release.parse with
  | some (.ok r) => .ok r
  | _ => .error .http

/-- The last release of a repository. -/
def Service.latest (s : Service) (owner repository : String) : Task ReleaseError Release := do
  let body ← s.fetch (s.latestUrl owner repository) "application/vnd.github+json"
  ExceptT.mk (pure (ofBody body))

/-- The bytes of an asset. -/
def Service.fetchAsset (s : Service) (a : Asset) : Task ReleaseError Bytes :=
  s.fetch a.url "application/octet-stream"

/-- The checksum that stands at the start of a published text. -/
def publishedChecksum (body : Bytes) : String :=
  Text.lowercase (String.ofList (Text.firstWord (lossyText body).toList))

/-- The bytes of an asset agree with a published checksum. -/
def verify (a : Asset) (data published : Bytes) : Except ReleaseError Unit :=
  let expected := publishedChecksum published
  let actual := Checksum.sha256Text data
  if actual == expected then .ok () else .error (.checksum a.name expected actual)

/-- The checksum that is published for an asset. -/
def companion? (assets : List Asset) (a : Asset) : Option Asset :=
  assets.find? (·.name == a.name ++ checksumEnding)

/-- Fetches an asset and checks it. -/
def Service.fetchVerified (s : Service) (r : Release) (a : Asset) : Task ReleaseError Bytes := do
  let data ← s.fetchAsset a
  match companion? r.assets a with
  | some companion =>
      let published ← s.fetchAsset companion
      ExceptT.mk (pure (verify a data published))
      pure data
  | none => pure data

/-- Writes a file into a directory, which is made if it is missing. -/
def store (directory : Path) (name : String) (data : Bytes) : FileAction ReleaseError Path := do
  changeAll .io fun t => t.makeDirectories directory
  let place := Path.join directory (utf8 name)
  change .io fun t => t.write place data
  pure place

/-- Downloads the asset for this system into a directory. -/
def Service.download (s : Service) (r : Release) (directory : Path) : Task ReleaseError Path := do
  match select r.assets thisSystem thisMachine with
  | none => throw (.noAsset r.tag thisSystem)
  | some a =>
      let data ← s.fetchVerified r a
      Task.onFiles (store directory a.name data)

end PluginHost.Release
