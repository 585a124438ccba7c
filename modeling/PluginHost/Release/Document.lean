import PluginHost.Json.Reader

/-!
# Release documents

A release has a tag, perhaps a name, and assets that can be downloaded.  `Release.parse` reads it
from the document that a server publishes.
-/

namespace PluginHost.Release

open Json

/-- A file that belongs to a release. -/
structure Asset where
  name : String
  url : String
  size : Nat := 0
  deriving DecidableEq, Repr

end PluginHost.Release

namespace PluginHost

open Json

/-- A published release. -/
structure Release where
  tag : String
  name : Option String := none
  assets : List Release.Asset := []
  deriving DecidableEq, Repr

namespace Release

/-- The fields of an asset that have been read. -/
structure AssetDraft where
  name : Option String := none
  url : Option String := none
  size : Option Nat := none

/-- An asset as a record. -/
def assetRecord : Record AssetDraft where
  name := "ReleaseAsset"
  fields := [
    ⟨"name", false, (·.name.isSome), fun _ d cs => do
      let (v, cs) ← readText cs
      pure ({ d with name := some v }, cs)⟩,
    ⟨"url", false, (·.url.isSome), fun _ d cs => do
      let (v, cs) ← readText cs
      pure ({ d with url := some v }, cs)⟩,
    ⟨"size", true, (·.size.isSome), fun _ d cs => do
      let (v, cs) ← readInteger 0 18446744073709551615 "u64" cs
      pure ({ d with size := some v.toNat }, cs)⟩]

/-- Reads an asset. -/
def readAsset (levels : Nat) : Reader Asset := fun cs => do
  let (d, cs) ← assetRecord.read levels {} cs
  let name ← required "name" d.name
  let url ← required "url" d.url
  pure (⟨name, url, d.size.getD 0⟩, cs)

/-- The fields of a release that have been read. -/
structure Draft where
  tag : Option String := none
  name : Option (Option String) := none
  assets : Option (List Asset) := none

/-- A release as a record. -/
def record : Record Draft where
  name := "Release"
  fields := [
    ⟨"tag_name", false, (·.tag.isSome), fun _ d cs => do
      let (v, cs) ← readText cs
      pure ({ d with tag := some v }, cs)⟩,
    ⟨"name", true, (·.name.isSome), fun _ d cs => do
      let (v, cs) ← readOptional readText cs
      pure ({ d with name := some v }, cs)⟩,
    ⟨"assets", true, (·.assets.isSome), fun levels d cs => do
      let (v, cs) ← readList levels readAsset cs
      pure ({ d with assets := some v }, cs)⟩]

/-- The release of a whole text. -/
def parse (s : String) : Except Json.Error Release := do
  let read : Reader Draft := record.read maxNesting {}
  let (d, cs) ← read s.toList
  let tag ← required "tag_name" d.tag
  endOfText (⟨tag, d.name.getD none, d.assets.getD []⟩, cs)

/-- What the release is called. -/
def title (r : Release) : String := r.name.getD r.tag

end Release

end PluginHost
