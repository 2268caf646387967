import PluginLoader.Deflate
import PluginLoader.Zip.Directory

/-!
A zip container that has been opened: its bytes and its entries, whose names differ. Opening takes
the last end record that leads to a sound directory. Reading an entry checks the header in front of
its content and, at the end, the checksum of what was decoded; the declared size plays no part.
-/
namespace PluginLoader.Zip

structure Container where
  data : ByteArray
  entries : List Entry

namespace Container

/-- Try end records, the last first. One whose directory does not read clears the kept fault. -/
def choose (data : ByteArray) : List Nat → Option Fault → Except Fault Container
  | [], kept => .error (kept.getD (.damaged .noEndRecord))
  | position :: rest, kept =>
    match judge data position with
    | .plan plan =>
      match plan.bind (readDirectory? data) with
      | some entries => .ok { data, entries }
      | none => choose data rest none
    | .record fault => choose data rest (some (kept.getD fault))
    | .other fault => choose data rest (some fault)

def open? (data : ByteArray) : Except Fault Container :=
  choose data (Bytes.occurrences data endMark (data.size - 3)) none

/-- Where an entry's content starts: after its local header, whose own lengths count. -/
def contentStart (c : Container) (e : Entry) : Except Fault Nat :=
  let field (offset width : Nat) := Bytes.littleEndian c.data (e.headerOffset + offset) width
  if c.data.size < e.headerOffset + 30 then .error .io
  else if !Bytes.holds c.data e.headerOffset localMark then .error (.damaged .localHeader)
  else .ok (e.headerOffset + 30 + field 26 2 + field 28 2)

/-- Content that a method stands for. -/
def decode (method : Nat) (stored : ByteArray) : Except Fault ByteArray :=
  if method = 0 then .ok stored
  else
    match Deflate.inflate? stored with
    | some content => .ok content
    | none => .error .io

/-- The bytes an entry's content is decoded from. -/
def stored (c : Container) (e : Entry) : Except Fault ByteArray := do
  if e.encrypted then .error (.unsupported .encryption)
  let start ← c.contentStart e
  if e.method ≠ 0 && e.method ≠ 8 then .error (.unsupported .method)
  if e.strong then .error .wrongPassword
  return c.data.extract start (start + e.compressedSize)

/-- The content of an entry. -/
def content (c : Container) (e : Entry) : Except Fault ByteArray := do
  let content ← decode e.method (← c.stored e)
  if Checksum.crc32 content.toList = e.crc then .ok content else .error .io

def find? (c : Container) (name : String) : Option Entry := c.entries.find? (·.name == name)

/-- The content of the entry with a name; none if there is no such entry. -/
def read (c : Container) (name : String) : Except Fault (Option ByteArray) :=
  match c.find? name with
  | some e => (c.content e).map some
  | none => .ok none

end Container
end PluginLoader.Zip
