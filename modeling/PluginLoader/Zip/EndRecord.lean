import PluginLoader.Bytes
import PluginLoader.Zip.Fault

/-!
The end of a zip container. Its end record says where the directory should be; bytes put in front of
the container shift everything, so the directory is looked for from there on, and the shift is added
to every offset. Records too large for the short form have a second, long form, found through a
locator in front of the short one.
-/
namespace PluginLoader.Zip

/-- Where a directory is and what it should hold. -/
structure DirectoryPlan where
  start : Nat
  count : Nat
  /-- What is added to offsets. -/
  shift : Nat
  deriving DecidableEq, Repr

def endMark : List UInt8 := [0x50, 0x4B, 0x05, 0x06]
def locatorMark : List UInt8 := [0x50, 0x4B, 0x06, 0x07]
def largeEndMark : List UInt8 := [0x50, 0x4B, 0x06, 0x06]
def entryMark : List UInt8 := [0x50, 0x4B, 0x01, 0x02]
def localMark : List UInt8 := [0x50, 0x4B, 0x03, 0x04]

/-- Offsets and sums of offsets have 64 bits. -/
def offsetLimit : Nat := 1 <<< 64

/-- What becomes of a number that may be too large for an offset: at most the largest one. -/
def capped (n : Nat) : Nat := min n (offsetLimit - 1)

structure EndRecord where
  position : Nat
  disk : Nat
  directoryDisk : Nat
  entriesHere : Nat
  entries : Nat
  directoryOffset : Nat

/-- The record at a position: it has to fit, together with its comment. -/
def EndRecord.read (data : ByteArray) (position : Nat) : Except Fault EndRecord :=
  let field (offset width : Nat) := Bytes.littleEndian data (position + offset) width
  if data.size < position + 22 then .error .io
  else if data.size < position + 22 + field 20 2 then .error (.damaged .commentTooLong)
  else .ok ⟨position, field 4 2, field 6 2, field 8 2, field 10 2, field 16 4⟩

/-- A field too small for its value holds all ones. -/
def EndRecord.mayBeLarge (r : EndRecord) : Bool :=
  r.entries == 0xFFFF || r.directoryOffset == 0xFFFFFFFF

structure Locator where
  position : Nat
  directoryDisk : Nat
  recordOffset : Nat
  disks : Nat

def Locator.read? (data : ByteArray) (record : EndRecord) : Option Locator :=
  if 20 ≤ record.position then
    let position := record.position - 20
    let field (offset width : Nat) := Bytes.littleEndian data (position + offset) width
    if Bytes.holds data position locatorMark then
      some ⟨position, field 4 4, field 8 8, field 16 4⟩
    else none
  else none

/-- A candidate that does not stand is passed over. Its fault is kept for the case that no candidate
stands: a fault of the short record only if none is kept yet, any other in any case. -/
inductive Verdict where
  | plan (plan : Option DirectoryPlan)
  | record (fault : Fault)
  | other (fault : Fault)

/-- The plan of a short record. A record whose disks differ, or one that overflows, has none. -/
def planOf (record : EndRecord) (shift : Nat) : Option DirectoryPlan :=
  if record.disk = record.directoryDisk then
    some ⟨record.directoryOffset + shift, record.entriesHere, shift⟩
  else none

def judgeShort (data : ByteArray) (record : EndRecord) : Verdict :=
  if record.entries = 0 then .plan (planOf record (record.position - record.directoryOffset))
  else if record.position ≤ record.directoryOffset then .other (.damaged .directoryOffset)
  else
    match Bytes.firstOccurrence data entryMark record.directoryOffset
        (record.position - record.directoryOffset) with
    | some found => .plan (planOf record (found - record.directoryOffset))
    | none => .other (.damaged .noDirectory)

/-- The long record at a position. `some none` is a record that stands but has no usable plan. -/
def largePlan (data : ByteArray) (locator : Locator) (position : Nat) :
    Except Fault (Option DirectoryPlan) :=
  let field (offset width : Nat) := Bytes.littleEndian data (position + offset) width
  let size := field 4 8
  let room := locator.position - position
  let shift := position - locator.recordOffset
  let entriesHere := field 24 8
  let entries := field 32 8
  let directoryOffset := field 48 8
  if data.size < position + 56 then .error .io
  else if size < 44 then .error (.damaged .lowRecordSize)
  else if room < capped (size + 12) then .error (.damaged .recordOverlapsLocator)
  else if field 20 4 ≠ locator.directoryDisk then .error (.damaged .otherDisk)
  else if size + 12 ≠ room then .error (.damaged .recordLength)
  else if position < capped (capped (entries * 46) + directoryOffset) then
    .error (.damaged .entryCount)
  else if entries < entriesHere || field 12 2 < field 14 2 || field 16 4 ≠ field 20 4
      || offsetLimit ≤ directoryOffset + shift then .ok none
  else .ok (some ⟨directoryOffset + shift, entries, shift⟩)

/-- Try the long records from a position on; the fault of the last one counts. -/
def judgeLarge (data : ByteArray) (locator : Locator) : Nat → Nat → Option Fault → Verdict
  | _, 0, kept => .other (kept.getD (.damaged .noLargeEndRecord))
  | position, count + 1, kept =>
    if Bytes.holds data position largeEndMark then
      match largePlan data locator position with
      | .ok plan => .plan plan
      | .error fault => judgeLarge data locator (position + 1) count (some fault)
    else judgeLarge data locator (position + 1) count kept

def judge (data : ByteArray) (position : Nat) : Verdict :=
  match EndRecord.read data position with
  | .error fault => .record fault
  | .ok record =>
    match if record.mayBeLarge then Locator.read? data record else none with
    | none => judgeShort data record
    | some locator =>
      if locator.position ≤ locator.recordOffset then .other (.damaged .locatorOffset)
      else if 1 < locator.disks then .other (.damaged .severalDisks)
      else
        judgeLarge data locator locator.recordOffset (locator.position - locator.recordOffset) none

end PluginLoader.Zip
