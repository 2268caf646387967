import PluginLoader.Checksum
import PluginLoader.Text.CodePage437
import PluginLoader.Text.Utf8
import PluginLoader.Zip.EndRecord

/-!
The directory of a zip container: one record for each entry, with its name, where its local header
is, and the size and checksum of its content. Extra fields may widen sizes and offsets or replace
the name.
-/
namespace PluginLoader.Zip

structure Entry where
  rawName : List UInt8
  name : String
  comment : List UInt8
  encrypted : Bool
  /-- The entry's content is encrypted by the strong scheme an extra field announces. -/
  strong : Bool
  method : Nat
  crc : UInt32
  compressedSize : Nat
  /-- The size the directory declares for the content. -/
  size : Nat
  headerOffset : Nat
  deriving DecidableEq, Repr

/-- What reading an extra field comes to. A field that ends early leaves what it has set so far. -/
inductive Extra where
  | read (entry : Entry)
  | short (entry : Entry)
  | damaged

/-- The number in bytes, least significant first. -/
def number (bytes : List UInt8) : Nat := bytes.foldr (fun b n => b.toNat + 256 * n) 0

/-- A field of all ones in a directory record: its value is in the extra field. -/
def allOnes : Nat := 0xFFFFFFFF

/-- One wide value: taken if the field announces all three or the record leaves this one open. -/
def wideValue (length current : Nat) (rest : List UInt8) :
    Option (Option (Nat × List UInt8)) :=
  if 24 ≤ length || current == allOnes then
    if rest.length < 8 then none else some (some (number (rest.take 8), rest.drop 8))
  else some none

/-- Sizes and offset of 64 bits, in a fixed order. The field may not be shorter than what it
holds. -/
def wideField (length : Nat) (data : List UInt8) (e : Entry) : Extra :=
  match wideValue length e.size data with
  | none => .short e
  | some first =>
    let e := { e with size := (first.map (·.1)).getD e.size }
    let rest := (first.map (·.2)).getD data
    match wideValue length e.compressedSize rest with
    | none => .short e
    | some second =>
      let e := { e with compressedSize := (second.map (·.1)).getD e.compressedSize }
      let rest := (second.map (·.2)).getD rest
      match wideValue length e.headerOffset rest with
      | none => .short e
      | some third =>
        let e := { e with headerOffset := (third.map (·.1)).getD e.headerOffset }
        let rest := (third.map (·.2)).getD rest
        let taken := data.length - rest.length
        if length < taken then .damaged
        else if rest.length < length - taken then .short e
        else .read e

/-- Text in Unicode that goes with a raw text: valid only for the raw text it was made for. Its
version does not count. -/
def unicodeField (length : Nat) (data raw : List UInt8) (e : Entry)
    (use : List UInt8 → Extra) : Extra :=
  match data with
  | [] => .short e
  | _ :: data =>
    if data.length < 4 then .short e
    else if length < 5 then .damaged
    else if (data.drop 4).length < length - 5 then .short e
    else if number (data.take 4) ≠ (Checksum.crc32 raw).toNat then .damaged
    else use ((data.drop 4).take (length - 5))

/-- Times of an entry. They have no use here but have to be announced as they are written. -/
def timesField (length : Nat) (data : List UInt8) (e : Entry) : Extra :=
  match data with
  | [] => .short e
  | flags :: data =>
    let present := (List.range 8).countP flags.toNat.testBit
    if length ≠ 5 && length ≠ 1 + 4 * present then .damaged
    else if 8 ≤ flags.toNat then .damaged
    else if data.length < length - 1 then .short e
    else .read e

/-- The strong encryption scheme, which names the method of the content. -/
def strongField (length : Nat) (data : List UInt8) (e : Entry) : Extra :=
  if length ≠ 7 then .damaged
  else if data.length < 7 then .short e
  else
    let version := number (data.take 2)
    let strength := number ((data.drop 4).take 1)
    if number ((data.drop 2).take 2) ≠ 0x4541 then .damaged
    else if version ≠ 1 && version ≠ 2 then .damaged
    else if strength < 1 || 3 < strength then .damaged
    else .read { e with strong := true, method := number ((data.drop 5).take 2) }

/-- Times of a certain file system: a single attribute of a fixed shape. -/
def attributeField (length : Nat) (data : List UInt8) (e : Entry) : Extra :=
  if length ≠ 32 then .damaged
  else if data.length < 6 then .short e
  else if number ((data.drop 4).take 2) ≠ 1 then .damaged
  else if data.length < 8 then .short e
  else if number ((data.drop 6).take 2) ≠ 24 then .damaged
  else if data.length < 32 then .short e
  else .read e

def extraField (kind length : Nat) (data : List UInt8) (e : Entry) : Extra :=
  match kind with
  | 0x0001 => wideField length data e
  | 0x000A => attributeField length data e
  | 0x9901 => strongField length data e
  | 0x5455 => timesField length data e
  | 0x6375 => unicodeField length data e.comment e fun text =>
      if (Utf8.decode? text).isSome then .read { e with comment := text } else .damaged
  | 0x7075 => unicodeField length data e.rawName e fun text =>
      match Utf8.decode? text with
      | some name => .read { e with rawName := text, name := String.ofList name }
      | none => .damaged
  | _ => if data.length < length then .short e else .read e

/-- All extra fields in turn; none for a damaged one. What follows a field cut short is left. -/
def extraFields (e : Entry) (data : List UInt8) : Option Entry :=
  match data with
  | k₀ :: k₁ :: n₀ :: n₁ :: rest =>
    match extraField (number [k₀, k₁]) (number [n₀, n₁]) rest e with
    | .read e => extraFields e (rest.drop (number [n₀, n₁]))
    | .short e => some e
    | .damaged => none
  | _ => some e
termination_by data.length
decreasing_by simp only [List.length_drop, List.length_cons]; omega

/-- Text of an entry: UTF-8 where the record says so, else code page 437. -/
def entryText (utf8 : Bool) (raw : List UInt8) : List Char :=
  if utf8 then Utf8.decodeLossy raw else CodePage437.decode raw

def slice (data : ByteArray) (start length : Nat) : List UInt8 :=
  (data.extract start (start + length)).toList

/-- Method number that stands for the strong scheme and needs its extra field. -/
def strongMethod : Nat := 99

/-- The directory record at a position, and where the next one starts. -/
def readEntry? (data : ByteArray) (plan : DirectoryPlan) (position : Nat) :
    Option (Entry × Nat) := do
  let field (offset width : Nat) := Bytes.littleEndian data (position + offset) width
  let nameAt := position + 46
  let extraAt := nameAt + field 28 2
  let commentAt := extraAt + field 30 2
  let after := commentAt + field 32 2
  if data.size < after || !Bytes.holds data position entryMark then none
  else
    let flags := field 8 2
    let utf8 := flags / 2048 % 2 == 1
    let rawName := slice data nameAt (extraAt - nameAt)
    let rawComment := slice data commentAt (after - commentAt)
    let entry : Entry := {
      rawName
      name := String.ofList (entryText utf8 rawName)
      comment := (String.ofList (entryText utf8 rawComment)).toUTF8.toList
      encrypted := flags % 2 == 1
      strong := false
      method := field 10 2
      crc := UInt32.ofNat (field 16 4)
      compressedSize := field 20 4
      size := field 24 4
      headerOffset := field 42 4 }
    let entry ← extraFields entry (slice data extraAt (commentAt - extraAt))
    let headerOffset := entry.headerOffset + plan.shift
    if entry.method = strongMethod && !entry.strong then none
    else if plan.start ≤ headerOffset || offsetLimit ≤ headerOffset then none
    else return ({ entry with headerOffset }, after)

/-- Give an entry its place: that of the entry of its name, which it replaces, else the last. -/
def place (e : Entry) : List Entry → List Entry
  | [] => [e]
  | d :: rest => if d.name = e.name then e :: rest else d :: place e rest

/-- The next `count` records. -/
def readEntries? (data : ByteArray) (plan : DirectoryPlan) :
    Nat → Nat → List Entry → Option (List Entry)
  | 0, _, entries => some entries
  | count + 1, position, entries =>
    match readEntry? data plan position with
    | some (entry, after) => readEntries? data plan count after (place entry entries)
    | none => none

def readDirectory? (data : ByteArray) (plan : DirectoryPlan) : Option (List Entry) :=
  readEntries? data plan plan.count plan.start []

end PluginLoader.Zip
