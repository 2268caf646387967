import PluginLoader.FileSystem

/-! What can be wrong with a zip container. -/
namespace PluginLoader.Zip

/-- A container that breaks the format. -/
inductive Damage where
  | noEndRecord
  | commentTooLong
  | directoryOffset
  | noDirectory
  | locatorOffset
  | severalDisks
  | lowRecordSize
  | recordOverlapsLocator
  | otherDisk
  | recordLength
  | entryCount
  | noLargeEndRecord
  | localHeader
  deriving DecidableEq, Repr

/-- A container that uses what is not supported. -/
inductive Unsupported where
  | encryption
  | method
  deriving DecidableEq, Repr

inductive Fault where
  /-- The file of the container cannot be read. -/
  | file (fault : FileFault)
  /-- The data ends too early, does not decode, or is not what its checksum is of. -/
  | io
  | damaged (what : Damage)
  | unsupported (what : Unsupported)
  | wrongPassword
  deriving DecidableEq, Repr

def Damage.phrase : Damage → String
  | .noEndRecord => "Could not find EOCD"
  | .commentTooLong => "EOCD comment exceeds file boundary"
  | .directoryOffset => "Invalid CDFH offset in EOCD"
  | .noDirectory => "No CDFH found"
  | .locatorOffset => "Invalid EOCD64 Locator CD offset"
  | .severalDisks => "Multi-disk ZIP files are not supported"
  | .lowRecordSize => "Low EOCD64 record size"
  | .recordOverlapsLocator => "EOCD64 extends beyond EOCD64 locator"
  | .otherDisk => "Invalid EOCD64: inconsistency with Locator data"
  | .recordLength => "Invalid EOCD64: inconsistent length"
  | .entryCount => "Invalid EOCD64: inconsistent number of files"
  | .noLargeEndRecord => "Could not find EOCD64"
  | .localHeader => "Invalid local file header"

def Unsupported.phrase : Unsupported → String
  | .encryption => "Password required to decrypt file"
  | .method => "Compression method not supported"

def Fault.message : Fault → String
  | .file _ => "i/o error"
  | .io => "i/o error"
  | .damaged what => "invalid Zip archive: " ++ what.phrase
  | .unsupported what => "unsupported Zip archive: " ++ what.phrase
  | .wrongPassword => "provided password is incorrect"

/-- What is under a fault: for a file that cannot be read, what the system says of it. -/
def Fault.cause? : Fault → Option String
  | .file fault => some fault.message
  | _ => none

end PluginLoader.Zip
