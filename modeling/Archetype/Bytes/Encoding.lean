import Archetype.Bytes.Utf16
import Archetype.Bytes.Utf8
import Archetype.Text.Lines

/-!
The encodings of rule files, and the reading of a file as text.
-/

namespace Archetype.Bytes

inductive Encoding where
  | ascii
  | latin1
  | utf8
  /-- UTF-8 whose first character is dropped if it is a byte order mark. -/
  | utf8Marked
  /-- UTF-16 whose byte order is told by a mark in front. -/
  | utf16
  | utf16Ordered (order : Utf16.Order)
deriving DecidableEq, Repr

/-- Encoding names are compared in lower case, with one low line for what stands between their
letters, digits and points. -/
def normalName (name : String) : String :=
  let isPart (c : Char) : Bool := c.isAlphanum || c == '.'
  let step (acc : List Char × Bool) (c : Char) : List Char × Bool :=
    if isPart c then
      (c.toLower :: (if acc.2 && !acc.1.isEmpty then '_' :: acc.1 else acc.1), false)
    else
      (acc.1, true)
  String.ofList (name.toList.foldl step ([], false)).1.reverse

namespace Encoding

def all : List Encoding :=
  [.ascii, .latin1, .utf8, .utf8Marked, .utf16, .utf16Ordered .little, .utf16Ordered .big]

/-- The name of an encoding. -/
def name : Encoding → String
  | .ascii => "ascii"
  | .latin1 => "latin_1"
  | .utf8 => "utf_8"
  | .utf8Marked => "utf_8_sig"
  | .utf16 => "utf_16"
  | .utf16Ordered .little => "utf_16_le"
  | .utf16Ordered .big => "utf_16_be"

/-- The other names that an encoding goes by. -/
def otherNames : Encoding → List String
  | .ascii =>
    ["646", "ansi_x3.4_1968", "ansi_x3_4_1968", "ansi_x3.4_1986", "cp367", "csascii", "ibm367",
      "iso646_us", "iso_646.irv_1991", "iso_ir_6", "us", "us_ascii"]
  | .latin1 =>
    ["8859", "cp819", "csisolatin1", "ibm819", "iso8859", "iso8859_1", "iso_8859_1",
      "iso_8859_1_1987", "iso_ir_100", "l1", "latin", "latin1"]
  | .utf8 => ["cp65001", "u8", "utf", "utf8", "utf8_ucs2", "utf8_ucs4"]
  | .utf8Marked => []
  | .utf16 => ["u16", "utf16"]
  | .utf16Ordered .little => ["unicodelittleunmarked", "utf_16le"]
  | .utf16Ordered .big => ["unicodebigunmarked", "utf_16be"]

/-- What the encoding of the machine, which is UTF-8, is called. -/
def machineName : String := "locale"

/-- The encoding that goes by a name. In the other names of an encoding, but not in its first one, a
point may stand for a low line. -/
def ofName? (name : String) : Option Encoding :=
  let normal := normalName name
  let withLines := normal.map fun c => if c = '.' then '_' else c
  let called (other : String) : Option Encoding := all.find? (·.otherNames.contains other)
  if name = machineName then some .utf8
  else called normal <|> called withLines <|> all.find? (·.name == normal)

end Encoding

/-- No encoding has a name with a null character. -/
def isEncodingName (name : String) : Bool :=
  !name.toList.contains '\x00'

/-- Why the contents of a file are no text. -/
inductive TextFault where
  | bytes (fault : Fault)
  /-- The name of the encoding is none. -/
  | notEncodingName
  | unknownEncoding (name : String)
  | noOrderMark
deriving DecidableEq, Repr

def TextFault.message : TextFault → String
  | .bytes fault => fault.message
  | .notEncodingName => "embedded null character"
  | .unknownEncoding name => s!"unknown encoding: {name}"
  | .noOrderMark => "UTF-16 stream does not start with BOM"

def decodeAscii (position : Nat) : Bytes → Except Fault (List Char)
  | [] => .ok []
  | byte :: rest =>
    if byte.toNat < 0x80 then
      (decodeAscii (position + 1) rest).map (Char.ofNat byte.toNat :: ·)
    else
      .error ⟨"ascii", .notBasic, position, 1, byte⟩

/-- Positions count from the end of the mark. A text that ends inside the mark is empty. -/
def decodeMarked (bytes : Bytes) : Except Fault (List Char) :=
  match bytes with
  | 0xEF :: 0xBB :: 0xBF :: rest => Utf8.decode rest
  | [0xEF] | [0xEF, 0xBB] => .ok []
  | _ => Utf8.decode bytes

/-- Without a mark the text is read in the little order, and is refused if that succeeds for any
unit. -/
def decodeByMark (bytes : Bytes) : Except TextFault (List Char) :=
  match Utf16.orderMark? bytes with
  | some order => (Utf16.decodeFrom order 2 (bytes.drop 2)).mapError .bytes
  | none =>
    match Utf16.decodeFrom .little 0 bytes with
    | .error fault => .error (.bytes fault)
    | .ok [] => .ok []
    | .ok _ => .error .noOrderMark

def Encoding.decode (encoding : Encoding) (bytes : Bytes) : Except TextFault (List Char) :=
  match encoding with
  | .ascii => (decodeAscii 0 bytes).mapError .bytes
  | .latin1 => .ok (bytes.map fun byte => Char.ofNat byte.toNat)
  | .utf8 => (Utf8.decode bytes).mapError .bytes
  | .utf8Marked => (decodeMarked bytes).mapError .bytes
  | .utf16 => decodeByMark bytes
  | .utf16Ordered order => (Utf16.decodeFrom order 0 bytes).mapError .bytes

/-- Byte order marks in front of a rule text are no part of it. -/
def byteOrderMark : Char := '\uFEFF'

/-- The rule text of a file: its lines end with line feeds, and no byte order mark is in front. -/
def ruleText (encodingName : String) (bytes : Bytes) : Except TextFault String :=
  if !isEncodingName encodingName then .error .notEncodingName
  else match Encoding.ofName? encodingName with
    | none => .error (.unknownEncoding encodingName)
    | some encoding => do
      let text ← encoding.decode bytes
      return String.ofList ((Text.unifyLineEnds text).dropWhile (· == byteOrderMark))

end Archetype.Bytes
