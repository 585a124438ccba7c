import PluginHost.Archive.Listing
import PluginHost.Text.Numeral
import PluginHost.Text.Blank

/-!
# Tar archives

A tar archive is a sequence of blocks of 512 bytes: a header, then the data it announces, filled
up with zeros.  The first header of zeros ends the archive, and so does the end of the bytes at a
block.  A header that carries a long name or extended fields speaks of the entry behind it.

`listing` reads an archive, `pack` writes one.
-/

namespace PluginHost.Archive.Tar

open Text

/-- The length of a block. -/
def blockSize : Nat := 512

/-- A number of bytes filled up to full blocks. -/
def filled (size : Nat) : Nat := (size + (blockSize - 1)) / blockSize * blockSize

/-! ## Fields of a header -/

/-- The bytes of a field. -/
def slice (start length : Nat) (header : Bytes) : Bytes := (header.drop start).take length

/-- The bytes of a field up to a zero. -/
def upToZero (field : Bytes) : Bytes := field.takeWhile (· != 0)

/-- The number that digits of base eight stand for, if it has at most 64 bits. -/
def octal? (digits : List Char) : Option Nat :=
  let digits := match digits with
    | '+' :: rest => rest
    | _ => digits
  if digits.isEmpty || digits.any (fun c => !('0' ≤ c && c ≤ '7')) then none
  else
    let n := digits.foldl (fun n c => 8 * n + (c.toNat - '0'.toNat)) 0
    if n ≤ maxUInt64 then some n else none

/-- A field with a number in base eight. -/
def number? (field : Bytes) : Option Nat := do
  octal? (trimChars (← chars? (upToZero field)))

/-- A field with a size, which may also be written in binary. -/
def size? (field : Bytes) : Option Nat :=
  match field with
  | b :: _ => if b < 128 then number? field else some (ofLittleEndian (field.reverse.take 8))
  | [] => none

/-- The field of the check within a header. -/
def checkStart : Nat := 148

/-- The end of that field. -/
def checkEnd : Nat := 156

/-- The sum of the bytes of a header, with blanks in the field of the check. -/
def headerSum (header : Bytes) : Nat :=
  let counted := header.take checkStart ++ List.replicate 8 32 ++ header.drop checkEnd
  (counted.map UInt8.toNat).foldl (· + ·) 0

/-- The header carries its own sum. -/
def isSound (header : Bytes) : Bool :=
  match number? (slice checkStart 8 header) with
  | some n => n % Nat.pow 2 32 == headerSum header
  | none => false

/-- The mark of the older extended header. -/
def oldMark : Bytes := utf8 "ustar  " ++ [0]

/-- The mark of the standard extended header. -/
def standardMark : Bytes := utf8 "ustar" ++ [0, 48, 48]

/-- The mark of a header. -/
def markOf (header : Bytes) : Bytes := slice 257 8 header

/-- Headers with a mark can speak of the entry behind them. -/
def isMarked (header : Bytes) : Bool := markOf header == oldMark || markOf header == standardMark

/-- The byte for the type of an entry. -/
def typeOf (header : Bytes) : UInt8 := header.getD 156 0

/-- The name in a header.  The standard header has two parts of it. -/
def nameOf (header : Bytes) : Path :=
  let name := upToZero (slice 0 100 header)
  let front := upToZero (slice 345 155 header)
  if markOf header == standardMark && !front.isEmpty then front ++ slash :: name else name

/-! ## Extended fields -/

/-- What headers have said of the entry behind them. -/
structure Announced where
  longName : Option Bytes := none
  longLink : Option Bytes := none
  fields : Option Bytes := none
  deriving DecidableEq, Repr

/-- Nothing has been said. -/
def Announced.isEmpty (a : Announced) : Bool :=
  a.longName.isNone && a.longLink.isNone && a.fields.isNone

/-- A line of extended fields, which starts with its own length: the name and the value. -/
def fieldOf (line : Bytes) : Option (Bytes × Bytes) := do
  let digits ← chars? (line.takeWhile (· != 32))
  let length ← readNat maxUInt64 digits
  if length != line.length + 1 then none
  else
    let pair := (line.dropWhile (· != 32)).drop 1
    let name := pair.takeWhile (· != 61)
    if name.length < pair.length then some (name, pair.drop (name.length + 1)) else none

/-- The lines of extended fields, up to the first empty one. -/
def fieldLines (bytes : Bytes) : List (Option (Bytes × Bytes)) :=
  ((splitOn 10 bytes).takeWhile (!·.isEmpty)).map fieldOf

/-- The value of a name; malformed lines are passed over. -/
def valueOf (name : String) (bytes : Bytes) : Option Bytes :=
  ((fieldLines bytes).filterMap id).lookup (utf8 name)

/-- The size that extended fields give, if every line before it is well formed. -/
def announcedSize (bytes : Bytes) : Option Nat :=
  find (fieldLines bytes)
where
  /-- Looks for the size. -/
  find : List (Option (Bytes × Bytes)) → Option Nat
    | some (name, value) :: rest =>
        if name == utf8 "size" then (chars? value).bind (readNat maxUInt64) else find rest
    | none :: _ => none
    | [] => none

/-- The path of an entry: a long name, an extended field, or what its header says. -/
def Announced.pathOf (a : Announced) (header : Bytes) : Path :=
  match a.longName with
  | some name => if name.getLast? == some 0 then name.dropLast else name
  | none => ((a.fields.bind (valueOf "path")).getD (nameOf header))

/-- The size of the data behind a header. -/
def Announced.sizeOf (a : Announced) (header : Bytes) : Option Nat := do
  let size ← size? (slice 124 12 header)
  pure ((a.fields.bind announcedSize).getD size)

/-! ## Files with holes -/

/-- The type of a file with holes.  Its header maps the parts that are not holes, and the map may go
on in blocks behind the header. -/
def sparseType : UInt8 := 83

/-- Where the map starts in a header, how many parts it has there and how many in a further block,
and the lengths of a number and of a part. -/
def mapStart : Nat := 386
@[inherit_doc mapStart] def mapParts : Nat := 4
@[inherit_doc mapStart] def moreMapParts : Nat := 21
@[inherit_doc mapStart] def mapNumber : Nat := 12
@[inherit_doc mapStart] def mapPart : Nat := 2 * mapNumber

/-- What a map has accounted for: the file up to a place, and its data but for a rest. -/
structure Mapped where
  reached : Nat
  left : Nat
  deriving DecidableEq, Repr

/-- Accounts for a part; an empty one says nothing.  Only the last one may end within a block of the
data. -/
def Mapped.add (size : Nat) (m : Mapped) (part : Bytes) : Option Mapped :=
  if part.getD 0 0 == 0 || part.getD mapNumber 0 == 0 then some m
  else do
    let start ← number? (slice 0 mapNumber part)
    let length ← number? (slice mapNumber mapNumber part)
    if length != 0 && (size - m.left) % blockSize != 0 || start < m.reached
        || start + length > maxUInt64 || length > m.left then none
    else some ⟨start + length, m.left - length⟩

/-- Accounts for parts that stand one behind the other. -/
def Mapped.addAll (size start count : Nat) (m : Mapped) (block : Bytes) : Option Mapped :=
  (List.range count).foldlM (fun m i => m.add size (slice (start + mapPart * i) mapPart block)) m

/-- Accounts for the blocks that go on with a map, and tells their length. -/
def Mapped.addBlocks (size : Nat) (m : Mapped) (bytes : Bytes) : Option (Mapped × Nat) :=
  let block := bytes.take blockSize
  if block.length < blockSize then none
  else
    match m.addAll size 0 moreMapParts block with
    | none => none
    | some m =>
        if block.getD (mapPart * moreMapParts) 0 == 1 then
          (m.addBlocks size (bytes.drop blockSize)).map (Prod.map id (blockSize + ·))
        else some (m, blockSize)
termination_by bytes.length
decreasing_by
  rename_i hblock _
  rw [List.length_take] at hblock
  rw [List.length_drop]
  simp only [blockSize] at hblock ⊢
  omega

/-- Accounts for the map in a header, and tells the length of the blocks that go on with it. -/
def mapOf (header : Bytes) (size : Nat) (bytes : Bytes) : Option (Mapped × Nat) :=
  (Mapped.addAll size mapStart mapParts ⟨0, size⟩ header).bind fun m =>
    if header.getD (mapStart + mapPart * mapParts) 0 == 1 then m.addBlocks size bytes
    else some (m, 0)

/-- The full length of a file with holes. -/
def wholeLength? (header : Bytes) : Option Nat :=
  number? (slice (mapStart + mapPart * mapParts + 1) mapNumber header)

/-- The map in a header of the older kind accounts for all of the data and the whole length. -/
def Mapped.isWhole (m : Mapped) (header : Bytes) : Bool :=
  markOf header == oldMark && m.left == 0 && wholeLength? header == some m.reached

/-- The length of the blocks between a header and its data.  Only those of a map stand there. -/
def mapLength? (header : Bytes) (size : Nat) (bytes : Bytes) : Option Nat :=
  if typeOf header != sparseType then some 0
  else
    (mapOf header size bytes).bind fun (m, length) => if m.isWhole header then some length else none

/-! ## Reading -/

/-- The types of headers that speak of the entry behind them. -/
def longNameType : UInt8 := 76
@[inherit_doc longNameType] def longLinkType : UInt8 := 75
@[inherit_doc longNameType] def fieldsType : UInt8 := 120

/-- What an entry of a type makes.  A file with holes makes none of them. -/
def kindOf (type : UInt8) : EntryKind :=
  if type == 48 || type == 0 || type == 55 then .file
  else if type == 53 then .directory
  else .other

/-- The archive cannot be read on. -/
def unreadable : Listing := .faulty (.io .corrupt)

/-- Adds what a header says of the entry behind it; it may say a thing once. -/
def Announced.add (a : Announced) (type : UInt8) (data : Bytes) : Option Announced :=
  if type == longNameType then
    if a.longName.isSome then none else some { a with longName := some data }
  else if type == longLinkType then
    if a.longLink.isSome then none else some { a with longLink := some data }
  else if a.fields.isSome then none
  else some { a with fields := some data }

/-- The header speaks of the entry behind it. -/
def announces (header : Bytes) : Bool :=
  isMarked header &&
    (typeOf header == longNameType || typeOf header == longLinkType || typeOf header == fieldsType)

/-- The entries from a block on, and what has been said of the first of them.  The number bounds
how many headers there are. -/
def entriesFrom : Nat → Bool → Announced → Bytes → Listing
  | 0, _, _, _ => unreadable
  | fuel + 1, intact, said, bytes =>
      let header := bytes.take blockSize
      let rest := bytes.drop blockSize
      if bytes.isEmpty && intact || header.length == blockSize && header.all (· == 0) then
        if said.isEmpty then ⟨[], none⟩ else unreadable
      else if header.length < blockSize || !isSound header then unreadable
      else
        match said.sizeOf header with
        | none => unreadable
        | some size =>
            if size + (blockSize - 1) > maxUInt64 then unreadable
            else
              match mapLength? header size rest with
              | none => unreadable
              | some mapped =>
                  let data := rest.take size
                  let isWhole := mapped + filled size ≤ rest.length
                  let behind := rest.drop (mapped + filled size)
                  if announces header then
                    match said.add (typeOf header) data with
                    | some said =>
                        if isWhole then entriesFrom fuel intact said behind else unreadable
                    | none => unreadable
                  else
                    let kind := kindOf (typeOf header)
                    Listing.cons
                      ⟨said.pathOf header, kind,
                        (number? (slice 100 8 header)).map (· % Nat.pow 2 32),
                        if kind == .file then data else []⟩
                      (if isWhole then entriesFrom fuel intact {} behind else unreadable)

/-- The entries of an archive. -/
def listing (source : Source) : Listing :=
  entriesFrom (source.data.length / blockSize + 1) source.intact {} source.data

/-! ## Writing -/

/-- What a header and its data are made from.  Without a mode the field of the mode holds no
number. -/
structure Member where
  name : Path
  data : Bytes
  mode : Option Nat := some 0o644
  type : UInt8 := 48
  link : Bytes := []
  deriving DecidableEq, Repr

/-- Digits of base eight, with zeros up to a width. -/
def octalField (width n : Nat) : Bytes :=
  let digits := (Nat.toDigits 8 n).map fun c => UInt8.ofNat c.toNat
  List.replicate (width - digits.length) 48 ++ digits

/-- Bytes in a field of a length, with zeros behind them. -/
def fieldOfLength (length : Nat) (bytes : Bytes) : Bytes :=
  bytes.take length ++ List.replicate (length - bytes.length) 0

/-- The header of a member. -/
def headerOf (m : Member) : Bytes :=
  let zeroField := octalField 7 0 ++ [0]
  let mode := match m.mode with
    | some mode => octalField 7 mode ++ [0]
    | none => List.replicate 7 120 ++ [0]
  let front := fieldOfLength 100 m.name ++ mode ++ zeroField ++ zeroField
    ++ octalField 11 m.data.length ++ [0] ++ octalField 11 0 ++ [0]
  let back := m.type :: fieldOfLength 100 m.link ++ oldMark
  let tail := List.replicate (blockSize - checkEnd - back.length) 0
  let sum := headerSum (front ++ List.replicate 8 32 ++ back ++ tail)
  front ++ octalField 6 sum ++ [0, 32] ++ back ++ tail

/-- A header with its data, filled up to full blocks. -/
def memberBlocks (m : Member) : Bytes :=
  headerOf m ++ m.data ++ List.replicate (filled m.data.length - m.data.length) 0

/-- The name of the entries that hold the name of the entry behind them. -/
def longNameEntry : Path := utf8 "././@LongLink"

/-- A member, with its name in front when the header has no room for it. -/
def packMember (m : Member) : Bytes :=
  if m.name.length > 100 then
    memberBlocks ⟨longNameEntry, m.name ++ [0], some 0o644, longNameType, []⟩ ++ memberBlocks m
  else memberBlocks m

/-- An archive of the members. -/
def pack (members : List Member) : Bytes :=
  members.flatMap packMember ++ List.replicate (2 * blockSize) 0

end PluginHost.Archive.Tar
