import PluginHost.Archive.Inflate
import PluginHost.Archive.Listing
import PluginHost.Checksum.Crc32

/-!
# Zip archives

A zip archive ends with a record that tells where its directory is.  The directory has a record
for every entry, with the place of the entry's own header and data.  A name that occurs again
takes the place of the first one.  Backslashes in names count as slashes.

`listing` reads an archive, `pack` writes one.
-/

namespace PluginHost.Archive.Zip

open Checksum

/-- A number that stands in some bytes at a place. -/
def numberAt (bytes : Bytes) (start length : Nat) : Nat :=
  ofLittleEndian ((bytes.drop start).take length)

/-- The marks of an entry's header, of a record of the directory, and of the last record. -/
def entryMark : Bytes := [0x50, 0x4b, 3, 4]
@[inherit_doc entryMark] def recordMark : Bytes := [0x50, 0x4b, 1, 2]
@[inherit_doc entryMark] def endMark : Bytes := [0x50, 0x4b, 5, 6]

/-- The lengths of these without their variable parts. -/
def entryLength : Nat := 30
@[inherit_doc entryLength] def recordLength : Nat := 46
@[inherit_doc entryLength] def endLength : Nat := 22

/-- The characters of the bytes from 128 on in the older encoding of names. -/
def highCharacters : String :=
  "ÇüéâäàåçêëèïîìÄÅÉæÆôöòûùÿÖÜ¢£¥₧ƒáíóúñÑªº¿⌐¬½¼¡«»░▒▓│┤╡╢╖╕╣║╗╝╜╛┐└┴┬├─┼╞╟╚╔╩╦╠═╬╧╨╤╥╙╘╒╓╫╪┘┌█▄▌▐▀" ++
  "αßΓπΣσµτΦΘΩδ∞φε∩≡±≥≤⌠⌡÷≈°∙·√ⁿ²■\u00a0"

/-- The text of a name, in UTF-8 or in the older encoding. -/
def nameText (isUtf8 : Bool) (name : Bytes) : String :=
  if isUtf8 then lossyText name
  else String.ofList (name.map fun b =>
    if b < 128 then Char.ofNat b.toNat else highCharacters.toList.getD (b.toNat - 128) ' ')

/-- A record of the directory. -/
structure Record where
  system : Nat
  flags : Nat
  method : Nat
  check : Nat
  packedSize : Nat
  attributes : Nat
  place : Nat
  name : String
  deriving DecidableEq, Repr

/-- The record that some bytes start with, and its length. -/
def recordOf (bytes : Bytes) : Option (Record × Nat) :=
  let nameLength := numberAt bytes 28 2
  let length := recordLength + nameLength + numberAt bytes 30 2 + numberAt bytes 32 2
  if bytes.take 4 != recordMark || bytes.length < length then none
  else
    let flags := numberAt bytes 8 2
    some ({
      system := numberAt bytes 5 1
      flags := flags
      method := numberAt bytes 10 2
      check := numberAt bytes 16 4
      packedSize := numberAt bytes 20 4
      attributes := numberAt bytes 38 4
      place := numberAt bytes 42 4
      name := nameText (flags.testBit 11) ((bytes.drop recordLength).take nameLength) }, length)

/-- A number of records. -/
def recordsOf : Nat → Bytes → Option (List Record)
  | 0, _ => some []
  | n + 1, bytes => do
      let (r, length) ← recordOf bytes
      pure (r :: (← recordsOf n (bytes.drop length)))

/-- The directory with a record in the place of the one that has the same name, or at the end. -/
def enter (r : Record) : List Record → List Record
  | [] => [r]
  | s :: rest => if s.name == r.name then r :: rest else s :: enter r rest

/-- Where the last record stands, counted from some place on. -/
def endPlace? : Nat → Bytes → Option Nat
  | _, [] => none
  | i, b :: rest =>
      match endPlace? (i + 1) rest with
      | some j => some j
      | none => if endMark.isPrefixOf (b :: rest) && endLength ≤ rest.length + 1 then some i else none

/-- The directory, and how far all places are shifted by bytes in front of the archive. -/
def directory? (bytes : Bytes) : Option (List Record × Nat) := do
  let last ← endPlace? 0 bytes
  let record := bytes.drop last
  let count := numberAt record 10 2
  let size := numberAt record 12 4
  let place := numberAt record 16 4
  if last < size + place then none
  else
    let shift := last - size - place
    let records ← recordsOf count (bytes.drop (shift + place))
    pure (records.foldl (fun all r => enter r all) [], shift)

/-- The mode of an entry, if the system it was made on has told one. -/
def Record.mode (r : Record) : Option Nat :=
  if r.attributes == 0 then none
  else if r.system == 3 then some (r.attributes / 65536)
  else if r.system == 0 then
    let mode := if r.attributes.testBit 4 then 0o40775 else 0o100664
    some (if r.attributes.testBit 0 then mode &&& 0o555 else mode)
  else none

/-- The name stands for a directory. -/
def Record.isDirectory (r : Record) : Bool :=
  match r.name.toList.getLast? with
  | some c => c == '/' || c == '\\'
  | none => false

/-- The path of an entry. -/
def Record.path (r : Record) : Path :=
  utf8OfChars (r.name.toList.map fun c => if c == '\\' then '/' else c)

/-- The packed data of an entry, as far as it is there. -/
def Record.packed (r : Record) (bytes : Bytes) : Option Bytes :=
  let header := bytes.drop r.place
  if header.take 4 != entryMark || header.length < entryLength then none
  else
    some ((header.drop (entryLength + numberAt header 26 2 + numberAt header 28 2)).take r.packedSize)

/-- What the packed data stands for. -/
def Record.unpacked (r : Record) (packed : Bytes) : Bytes × Bool :=
  let (data, ended) :=
    if r.method == 0 then (packed, true)
    else
      let inflated := inflate packed
      (inflated.data, inflated.outcome != .corrupt)
  (data, ended && (crc32 data).toNat == r.check)

/-- The entries of the records.  An entry that cannot be opened is a fault of the archive; damaged
data shows when a file has been written out. -/
def entriesOf (bytes : Bytes) : List Record → Listing
  | [] => ⟨[], none⟩
  | r :: rest =>
      match r.packed bytes with
      | none => .faulty .zip
      | some packed =>
          if r.flags.testBit 0 || !(r.method == 0 || r.method == 8) then .faulty .zip
          else if r.isDirectory then
            .cons ⟨r.path, .directory, r.mode, []⟩ (entriesOf bytes rest)
          else
            let (data, isSound) := r.unpacked packed
            .cons ⟨r.path, .file, r.mode, data⟩
              (if isSound then entriesOf bytes rest else .faulty (.io .corrupt))

/-- The entries of an archive. -/
def listing (bytes : Bytes) : Listing :=
  match directory? bytes with
  | none => .faulty .zip
  | some (records, shift) => entriesOf (bytes.drop shift) records

/-! ## Writing -/

/-- What an entry is made from. -/
structure Member where
  name : Bytes
  data : Bytes
  mode : Option Nat := some 0o644
  isUnix : Bool := true
  isDeflated : Bool := false
  isDamaged : Bool := false
  deriving DecidableEq, Repr

/-- The part that an entry's header and its record share. -/
def Member.common (m : Member) (packed : Bytes) : Bytes :=
  let check := (crc32 m.data).toNat
  let check := if m.isDamaged then check ^^^ 1 else check
  [20, 0, 0, 8, if m.isDeflated then 8 else 0, 0, 0, 0, 0x21, 0]
    ++ littleEndian 4 check ++ littleEndian 4 packed.length ++ littleEndian 4 m.data.length
    ++ littleEndian 2 m.name.length ++ [0, 0]

/-- The data of an entry as it is packed. -/
def Member.packed (m : Member) : Bytes := if m.isDeflated then deflateStored m.data else m.data

/-- The header and data of an entry. -/
def Member.local (m : Member) : Bytes :=
  entryMark ++ m.common m.packed ++ m.name ++ m.packed

/-- The record of an entry at a place. -/
def Member.record (m : Member) (place : Nat) : Bytes :=
  recordMark ++ [20, if m.isUnix then 3 else 0] ++ m.common m.packed ++ List.replicate 6 0
    ++ littleEndian 4 (m.mode.getD 0 * 65536) ++ littleEndian 4 place ++ m.name

/-- The records of entries that stand one behind the other from a place on. -/
def recordsFrom (place : Nat) : List Member → Bytes
  | [] => []
  | m :: rest => m.record place ++ recordsFrom (place + m.local.length) rest

/-- An archive of the members. -/
def pack (members : List Member) : Bytes :=
  let entries := members.flatMap Member.local
  let records := recordsFrom 0 members
  entries ++ records ++ endMark ++ [0, 0, 0, 0] ++ littleEndian 2 members.length
    ++ littleEndian 2 members.length ++ littleEndian 4 records.length
    ++ littleEndian 4 entries.length ++ [0, 0]

end PluginHost.Archive.Zip
