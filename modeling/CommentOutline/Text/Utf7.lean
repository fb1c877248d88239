import CommentOutline.Text.Encoding

set_option autoImplicit false

/-! UTF-7. All bytes of ASCII but the plus sign stand for themselves; a plus sign opens a section in
Base64 that holds units of UTF-16. A half of a surrogate pair that stands alone there is let
through. -/

namespace CommentOutline.Text

namespace Utf7

def digit? (b : Nat) : Option Nat :=
  if 65 ≤ b ∧ b ≤ 90 then some (b - 65)
  else if 97 ≤ b ∧ b ≤ 122 then some (b - 71)
  else if 48 ≤ b ∧ b ≤ 57 then some (b + 4)
  else if b = 43 then some 62
  else if b = 47 then some 63
  else none

inductive Fault where
  | cutUnit
  | strayBits
  | illFormed
  | unfinished
  | special (byte : UInt8)
deriving Repr, DecidableEq

/-- A fault in the bytes from an offset up to another one. -/
structure Error where
  fault : Fault
  offset : Nat
  behind : Nat
deriving Repr, DecidableEq

/-- What a section in Base64 has so far: bits that make no unit yet, and a high half that may get
its low half. -/
structure Rest where
  bitCount : Nat
  bits : Nat
  high : Option Nat
deriving Repr, DecidableEq

/-- Between sections, behind a plus sign, or in a section; with the offset of the plus sign. -/
inductive Mode where
  | plain
  | opened (start : Nat)
  | inside (start : Nat) (rest : Rest)
deriving Repr, DecidableEq

namespace Rest

def takeUnit (rest : Rest) (unit : Nat) : List Point × Rest :=
  let next : Option Nat := if isHigh unit then some unit else none
  let alone : List Point := if isHigh unit then [] else [.ofUnit unit]
  match rest.high with
  | none => (alone, { rest with high := next })
  | some high =>
      if isLow unit then ([.char (joinPair high unit)], { rest with high := none })
      else (.ofUnit high :: alone, { rest with high := next })

def takeDigit (rest : Rest) (digit : Nat) : List Point × Rest :=
  let bits := rest.bits * 64 + digit
  let count := rest.bitCount + 6
  if count < 16 then ([], { rest with bitCount := count, bits := bits })
  else
    let size := Nat.pow 2 (count - 16)
    takeUnit { rest with bitCount := count - 16, bits := bits % size } (bits / size)

end Rest

def stepPlain (offset : Nat) (byte : UInt8) : Except Error (List Point × Mode) :=
  if byte.toNat = 43 then .ok ([], .opened offset)
  else if byte.toNat < 128 then .ok ([.char (Char.ofNat byte.toNat)], .plain)
  else .error ⟨.special byte, offset, offset + 1⟩

def stepDigit (start : Nat) (rest : Rest) (digit : Nat) : List Point × Mode :=
  let taken := rest.takeDigit digit
  (taken.1, .inside start taken.2)

/-- What a byte comes to. A section ends at the first byte that is no digit; a minus sign there is
passed over. -/
def step (offset : Nat) (byte : UInt8) : Mode → Except Error (List Point × Mode)
  | .plain => stepPlain offset byte
  | .opened start =>
      if byte.toNat = 45 then .ok ([.char '+'], .plain)
      else match digit? byte.toNat with
        | some digit => .ok (stepDigit start ⟨0, 0, none⟩ digit)
        | none => .error ⟨.illFormed, start, offset + 1⟩
  | .inside start rest =>
      match digit? byte.toNat with
      | some digit => .ok (stepDigit start rest digit)
      | none =>
          let alone := (rest.high.map Point.ofUnit).toList
          if 6 ≤ rest.bitCount then .error ⟨.cutUnit, start, offset + 1⟩
          else if rest.bits ≠ 0 then .error ⟨.strayBits, start, offset + 1⟩
          else if byte.toNat = 45 then .ok (alone, .plain)
          else (stepPlain offset byte).map fun next => (alone ++ next.1, next.2)

def decodeFrom (offset : Nat) : Mode → List UInt8 → Except Error (List Point)
  | .inside start rest, [] =>
      if rest.high.isSome || 6 ≤ rest.bitCount || rest.bits ≠ 0 then
        .error ⟨.unfinished, start, offset⟩
      else .ok []
  | _, [] => .ok []
  | mode, byte :: bytes =>
      match step offset byte mode with
      | .error error => .error error
      | .ok next => (decodeFrom (offset + 1) next.2 bytes).map (next.1 ++ ·)

def Fault.message : Fault → String
  | .cutUnit => "partial character in shift sequence"
  | .strayBits => "non-zero padding bits in shift sequence"
  | .illFormed => "ill-formed sequence"
  | .unfinished => "unterminated shift sequence"
  | .special _ => "unexpected special character"

def Error.message (error : Error) : String :=
  "'utf7' codec can't decode " ++
    (match error.fault with
      | .special byte => "byte " ++ hexByte byte ++ " in position " ++ error.offset.repr
      | _ => "bytes in position " ++ error.offset.repr ++ "-" ++ (error.behind - 1).repr) ++
    ": " ++ error.fault.message

def codec : Codec := fun bytes => (decodeFrom 0 .plain bytes).mapError Error.message

def isName (name : String) : Bool :=
  let plain := Encoding.normalName name
  let aliases := ["u7", "utf7", "unicode_1_1_utf_7"]
  aliases.contains plain || aliases.contains (Encoding.underscored plain) || plain == "utf_7"

end Utf7

/-- The codecs that this program brings with it. -/
def Codecs.standard : Codecs := fun name =>
  if Utf7.isName name then some Utf7.codec else Option.none

end CommentOutline.Text
