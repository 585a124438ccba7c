import PluginHost.Archive.Inflate
import PluginHost.Archive.Listing
import PluginHost.Checksum.Crc32

/-!
# Gzip streams

A gzip member is a header, a deflated stream, and the check and the length of what it stands for.
Reading goes as far as the first member: `Source` tells whether it is intact.  `pack` makes a
member of stored blocks.
-/

namespace PluginHost.Archive.Gzip

open Checksum

/-- The bytes that every member starts with: the mark of the format and of its only method. -/
def mark : Bytes := [0x1f, 0x8b, 8]

/-- A field of text that a zero byte ends. -/
def skipText (bytes : Bytes) : Option Bytes :=
  match bytes.dropWhile (· != 0) with
  | _ :: rest => some rest
  | [] => none

/-- Passes over a field, when it is there. -/
def skipField (present : Bool) (skip : Bytes → Option Bytes) (bytes : Bytes) : Option Bytes :=
  if present then skip bytes else some bytes

/-- A field with its length in front. -/
def skipExtra : Bytes → Option Bytes
  | low :: high :: rest =>
      let n := ofLittleEndian [low, high]
      if n ≤ rest.length then some (rest.drop n) else none
  | _ => none

/-- The check of the header itself. -/
def skipHeaderCheck (header : Bytes) : Bytes → Option Bytes
  | low :: high :: rest =>
      let seen := header.take (header.length - rest.length - 2)
      if ofLittleEndian [low, high] == (crc32 seen).toNat % 65536 then some rest else none
  | _ => none

/-- What follows the header of a member. -/
def body? (input : Bytes) : Option Bytes :=
  match input.drop 3 with
  | flags :: _ :: _ :: _ :: _ :: _ :: _ :: rest =>
      let has (n : Nat) : Bool := flags.toNat.testBit n
      if input.take 3 != mark || flags.toNat ≥ 32 then none
      else do
        let rest ← skipField (has 2) skipExtra rest
        let rest ← skipField (has 3) skipText rest
        let rest ← skipField (has 4) skipText rest
        skipField (has 1) (skipHeaderCheck input) rest
  | _ => none

/-- The check and the length behind the data of a member. -/
def trailer (data : Bytes) : Bytes :=
  littleEndian 4 (crc32 data).toNat ++ littleEndian 4 data.length

/-- What the first member stands for. -/
def source (input : Bytes) : Source :=
  match body? input with
  | none => ⟨[], false⟩
  | some body =>
      let inflated := inflate body
      ⟨inflated.data, inflated.outcome == .complete && inflated.rest.take 8 == trailer inflated.data⟩

/-- A member that stands for the data. -/
def pack (data : Bytes) : Bytes :=
  mark ++ [0, 0, 0, 0, 0, 0, 255] ++ deflateStored data ++ trailer data

end PluginHost.Archive.Gzip
