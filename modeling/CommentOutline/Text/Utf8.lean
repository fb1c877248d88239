set_option autoImplicit false

/-! UTF-8: the bytes of characters, and the characters of bytes. Reading stops at the first byte
sequence that no character has, and says where it stands and what is wrong with it. -/

namespace CommentOutline.Text.Utf8

def byte (n : Nat) : UInt8 := UInt8.ofNat n

def encodeChar (c : Char) : List UInt8 :=
  let n := c.toNat
  if n < 0x80 then [byte n]
  else if n < 0x800 then [byte (0xC0 + n / 0x40), byte (0x80 + n % 0x40)]
  else if n < 0x10000 then
    [byte (0xE0 + n / 0x1000), byte (0x80 + n / 0x40 % 0x40), byte (0x80 + n % 0x40)]
  else
    [byte (0xF0 + n / 0x40000), byte (0x80 + n / 0x1000 % 0x40), byte (0x80 + n / 0x40 % 0x40),
      byte (0x80 + n % 0x40)]

def encode (cs : List Char) : List UInt8 := cs.flatMap encodeChar

inductive Fault where
  | invalidStart
  | invalidContinuation
  | unexpectedEnd
deriving Repr, DecidableEq

/-- What the front of a byte sequence holds: a character of some bytes, or a fault of some
bytes. -/
inductive Step where
  | char (c : Char) (width : Nat)
  | fault (fault : Fault) (width : Nat)
deriving Repr, DecidableEq

def isContinuation (b : Nat) : Bool := 0x80 ≤ b && b < 0xC0

/-- Whether a byte may follow the first of three or four: some would make the sequence longer than
needed, a surrogate, or a number past the last character. -/
def isSecond (first second : Nat) : Bool :=
  isContinuation second &&
    (if first = 0xE0 then 0xA0 ≤ second
      else if first = 0xED then second < 0xA0
      else if first = 0xF0 then 0x90 ≤ second
      else if first = 0xF4 then second < 0x90
      else true)

def stepTwo (a : Nat) : List Nat → Step
  | [] => .fault .unexpectedEnd 1
  | b :: _ =>
      if isContinuation b then .char (Char.ofNat ((a - 0xC0) * 0x40 + (b - 0x80))) 2
      else .fault .invalidContinuation 1

def stepThree (a : Nat) : List Nat → Step
  | [] => .fault .unexpectedEnd 1
  | b :: rest =>
      if !isSecond a b then .fault .invalidContinuation 1
      else match rest with
        | [] => .fault .unexpectedEnd 2
        | c :: _ =>
            if isContinuation c then
              .char (Char.ofNat ((a - 0xE0) * 0x1000 + (b - 0x80) * 0x40 + (c - 0x80))) 3
            else .fault .invalidContinuation 2

def stepFour (a : Nat) : List Nat → Step
  | [] => .fault .unexpectedEnd 1
  | b :: rest =>
      if !isSecond a b then .fault .invalidContinuation 1
      else match rest with
        | [] => .fault .unexpectedEnd 2
        | c :: rest =>
            if !isContinuation c then .fault .invalidContinuation 2
            else match rest with
              | [] => .fault .unexpectedEnd 3
              | d :: _ =>
                  if isContinuation d then
                    .char (Char.ofNat ((a - 0xF0) * 0x40000 + (b - 0x80) * 0x1000 +
                      (c - 0x80) * 0x40 + (d - 0x80))) 4
                  else .fault .invalidContinuation 3

/-- Reads the character that a byte begins; the second argument holds the bytes behind it. -/
def step (first : UInt8) (rest : List UInt8) : Step :=
  let a := first.toNat
  let following := (rest.take 3).map UInt8.toNat
  if a < 0x80 then .char (Char.ofNat a) 1
  else if a < 0xC2 then .fault .invalidStart 1
  else if a < 0xE0 then stepTwo a following
  else if a < 0xF0 then stepThree a following
  else if a < 0xF5 then stepFour a following
  else .fault .invalidStart 1

structure Error where
  offset : Nat
  first : UInt8
  width : Nat
  fault : Fault
deriving Repr, DecidableEq

/-- Reads characters from an offset on. The third argument counts the bytes of the last character
that are still to be passed over. -/
def decodeFrom (offset : Nat) : (passing : Nat) → List UInt8 → Except Error (List Char)
  | _, [] => .ok []
  | passing + 1, _ :: rest => decodeFrom (offset + 1) passing rest
  | 0, first :: rest =>
      match step first rest with
      | .char c width => (decodeFrom (offset + 1) (width - 1) rest).map (c :: ·)
      | .fault fault width => .error ⟨offset, first, width, fault⟩

def decode (bytes : List UInt8) : Except Error (List Char) := decodeFrom 0 0 bytes

end CommentOutline.Text.Utf8
