/-!
# Cyclic redundancy check

The 32-bit check sum that archives keep of their members' bytes: the remainder of the bytes,
taken bit by bit from the lowest, by the reversed polynomial.
-/

namespace TabPackager.Crc32

def polynomial : UInt32 := 0xEDB88320

def bitStep (r : UInt32) : UInt32 :=
  if r &&& 1 = 1 then (r >>> 1) ^^^ polynomial else r >>> 1

def byteStep (r : UInt32) (b : UInt8) : UInt32 :=
  let r := r ^^^ b.toUInt32
  bitStep (bitStep (bitStep (bitStep (bitStep (bitStep (bitStep (bitStep r)))))))

def ofBytes (data : ByteArray) : UInt32 := (data.foldl byteStep 0xFFFFFFFF) ^^^ 0xFFFFFFFF

end TabPackager.Crc32
