import PluginHost.Bytes

/-!
# The cyclic redundancy check of archives

`crc32` is the checksum that gzip streams and zip entries carry: the remainder of a division of
polynomials over two elements, taken bit by bit with the lowest bit first.
-/

namespace PluginHost.Checksum

/-- The polynomial of the check, with the lowest bit first. -/
def crcPolynomial : UInt32 := 0xEDB88320

/-- Shifts out one bit. -/
def crcBit (state : UInt32) : UInt32 :=
  if state &&& 1 == 1 then (state >>> 1) ^^^ crcPolynomial else state >>> 1

/-- Takes in one byte. -/
def crcByte (state : UInt32) (b : UInt8) : UInt32 :=
  crcBit (crcBit (crcBit (crcBit (crcBit (crcBit (crcBit (crcBit (state ^^^ b.toUInt32))))))))

/-- The check of bytes. -/
def crc32 (bytes : Bytes) : UInt32 := bytes.foldl crcByte 0xFFFFFFFF ^^^ 0xFFFFFFFF

end PluginHost.Checksum
