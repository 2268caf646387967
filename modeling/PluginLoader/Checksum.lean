/-! CRC-32 with the reflected polynomial `EDB88320`. -/
namespace PluginLoader.Checksum

def shift (crc : UInt32) : UInt32 :=
  if crc &&& 1 = 1 then (crc >>> 1) ^^^ 0xEDB88320 else crc >>> 1

def feed (crc : UInt32) (b : UInt8) : UInt32 :=
  shift (shift (shift (shift (shift (shift (shift (shift (crc ^^^ b.toUInt32))))))))

def crc32 (data : List UInt8) : UInt32 := data.foldl feed 0xFFFFFFFF ^^^ 0xFFFFFFFF

end PluginLoader.Checksum
