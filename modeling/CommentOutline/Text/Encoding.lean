import CommentOutline.Text.Point

set_option autoImplicit false

/-! The encodings of source files. Four are known here; any other name is for the codecs of the
machine. -/

namespace CommentOutline.Text

inductive Encoding where
  | utf8
  | utf8Marked
  | latin1
  | ascii
deriving Repr, DecidableEq

inductive EncodingError where
  | unknown (name : String)
  | utf8 (error : Utf8.Error)
  | ascii (offset : Nat) (byte : UInt8)
  | codec (message : String)
deriving Repr, DecidableEq

/-- The code points of bytes, or why they have none. -/
abbrev Codec := List UInt8 → Except String (List Point)

/-- The codecs that a machine has by name. -/
abbrev Codecs := String → Option Codec

def Codecs.none : Codecs := fun _ => Option.none

namespace Encoding

/-- Other names of the encodings. In a name looked up a full stop may stand for an underscore. -/
def aliases : List (Encoding × List String) := [
  (.utf8, ["utf8", "u8", "utf", "utf8_ucs2", "utf8_ucs4", "cp65001"]),
  (.latin1, ["latin1", "latin", "l1", "8859", "cp819", "csisolatin1", "ibm819", "iso8859",
    "iso8859_1", "iso_8859_1", "iso_8859_1_1987", "iso_ir_100"]),
  (.ascii, ["646", "ansi_x3.4_1968", "ansi_x3_4_1968", "ansi_x3.4_1986", "cp367", "csascii",
    "ibm367", "iso646_us", "iso_646.irv_1991", "iso_ir_6", "us", "us_ascii"])]

def ofMainName? (name : String) : Option Encoding :=
  [("utf_8", Encoding.utf8), ("utf_8_sig", .utf8Marked), ("latin_1", .latin1),
    ("ascii", .ascii)].lookup name

def ofAlias? (name : String) : Option Encoding :=
  (aliases.find? fun entry => entry.2.contains name).map Prod.fst

def isNameChar (c : Char) : Bool := c.isAlphanum || c = '.'

/-- A name with one underscore for any run of other marks between words. -/
def plainName : (between : Bool) → List Char → List Char
  | _, [] => []
  | between, c :: cs =>
      if isNameChar c then (if between then ['_', c] else [c]) ++ plainName false cs
      else if (cs.any isNameChar) then plainName true cs
      else []

def underscored (name : String) : String :=
  String.ofList (name.toList.map fun c => if c = '.' then '_' else c)

/-- A name as encodings are looked up by. -/
def normalName (name : String) : String :=
  String.ofList (plainName false ((name.toList.map Char.toLower).dropWhile fun c => !isNameChar c))

/-- The encoding that a name stands for. The name "locale" asks for the one of the surroundings,
which is UTF-8. -/
def ofName? (name : String) : Option Encoding :=
  let plain := normalName name
  if name = "locale" then some .utf8
  else (ofAlias? plain).or ((ofAlias? (underscored plain)).or (ofMainName? plain))

def byteOrderMark : List UInt8 := [0xEF, 0xBB, 0xBF]

def decodeAscii (offset : Nat) : List UInt8 → Except EncodingError (List Char)
  | [] => .ok []
  | byte :: rest =>
      if byte.toNat < 0x80 then
        (decodeAscii (offset + 1) rest).map (Char.ofNat byte.toNat :: ·)
      else .error (.ascii offset byte)

def decodeUtf8 (bytes : List UInt8) : Except EncodingError (List Char) :=
  match Utf8.decode bytes with
  | .ok cs => .ok cs
  | .error error => .error (.utf8 error)

/-- The characters of bytes. The start of a byte order mark alone is no text yet. -/
def decode (encoding : Encoding) (bytes : List UInt8) : Except EncodingError (List Char) :=
  match encoding with
  | .utf8 => decodeUtf8 bytes
  | .utf8Marked =>
      if bytes.length < 3 && bytes.isPrefixOf byteOrderMark then .ok []
      else if byteOrderMark.isPrefixOf bytes then decodeUtf8 (bytes.drop 3)
      else decodeUtf8 bytes
  | .latin1 => .ok (bytes.map fun byte => Char.ofNat byte.toNat)
  | .ascii => decodeAscii 0 bytes

end Encoding

/-- The text that bytes are in a named encoding; the other characters stand for nothing in it. -/
def decodeNamed (codecs : Codecs) (others : List Char) (name : String) (bytes : List UInt8) :
    Except EncodingError Held :=
  match Encoding.ofName? name with
  | some encoding => (encoding.decode bytes).map fun text => ⟨text, []⟩
  | none =>
      match codecs name with
      | none => .error (.unknown name)
      | some codec =>
          match codec bytes with
          | .ok points => .ok (hold others points)
          | .error message => .error (.codec message)

namespace Utf8

def Fault.message : Fault → String
  | .invalidStart => "invalid start byte"
  | .invalidContinuation => "invalid continuation byte"
  | .unexpectedEnd => "unexpected end of data"

end Utf8

def hexByte (byte : UInt8) : String := "0x" ++ String.ofList (Quoted.hexDigits 2 byte.toNat)

def EncodingError.message : EncodingError → String
  | .unknown name => "unknown encoding: " ++ name
  | .utf8 error =>
      "'utf-8' codec can't decode " ++
        (if error.width = 1 then
          "byte " ++ hexByte error.first ++ " in position " ++ error.offset.repr
        else
          "bytes in position " ++ error.offset.repr ++ "-" ++
            (error.offset + error.width - 1).repr) ++
        ": " ++ error.fault.message
  | .ascii offset byte =>
      "'ascii' codec can't decode byte " ++ hexByte byte ++ " in position " ++ offset.repr ++
        ": ordinal not in range(128)"
  | .codec message => message

end CommentOutline.Text
