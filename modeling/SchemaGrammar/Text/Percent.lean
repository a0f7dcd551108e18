import SchemaGrammar.Text.Hex

set_option autoImplicit false

/-! # Percent-encoded text

A percent sign and two hexadecimal digits stand for one byte; the bytes of each run of ASCII
characters are UTF-8. What is not UTF-8 becomes the replacement character, one for each longest
beginning of a character that breaks off. -/

namespace SchemaGrammar.Text

/-! ## UTF-8 -/

/-- The character that stands for bytes which are no character. -/
def replacement : Char := Char.ofNat 0xFFFD

def isTail (b : Nat) : Bool :=
  0x80 ≤ b && b ≤ 0xBF

/-- May `b` follow the first byte `a` of a three-byte character? -/
def isSecondOfThree (a b : Nat) : Bool :=
  (if a = 0xE0 then 0xA0 else 0x80) ≤ b && b ≤ (if a = 0xED then 0x9F else 0xBF)

/-- May `b` follow the first byte `a` of a four-byte character? -/
def isSecondOfFour (a b : Nat) : Bool :=
  (if a = 0xF0 then 0x90 else 0x80) ≤ b && b ≤ (if a = 0xF4 then 0x8F else 0xBF)

/-- The characters of UTF-8 bytes. -/
def decodeUtf8 : List Nat → List Char
  | [] => []
  | a :: rest =>
    if a < 0x80 then Char.ofNat a :: decodeUtf8 rest
    else if 0xC2 ≤ a && a ≤ 0xDF then
      match rest with
      | b :: rest₁ =>
        if isTail b then Char.ofNat ((a - 0xC0) * 0x40 + (b - 0x80)) :: decodeUtf8 rest₁
        else replacement :: decodeUtf8 (b :: rest₁)
      | [] => [replacement]
    else if 0xE0 ≤ a && a ≤ 0xEF then
      match rest with
      | b :: rest₁ =>
        if isSecondOfThree a b then
          match rest₁ with
          | c :: rest₂ =>
            if isTail c then
              Char.ofNat ((a - 0xE0) * 0x1000 + (b - 0x80) * 0x40 + (c - 0x80))
                :: decodeUtf8 rest₂
            else replacement :: decodeUtf8 (c :: rest₂)
          | [] => [replacement]
        else replacement :: decodeUtf8 (b :: rest₁)
      | [] => [replacement]
    else if 0xF0 ≤ a && a ≤ 0xF4 then
      match rest with
      | b :: rest₁ =>
        if isSecondOfFour a b then
          match rest₁ with
          | c :: rest₂ =>
            if isTail c then
              match rest₂ with
              | d :: rest₃ =>
                if isTail d then
                  Char.ofNat ((a - 0xF0) * 0x40000 + (b - 0x80) * 0x1000 + (c - 0x80) * 0x40
                    + (d - 0x80)) :: decodeUtf8 rest₃
                else replacement :: decodeUtf8 (d :: rest₃)
              | [] => [replacement]
            else replacement :: decodeUtf8 (c :: rest₂)
          | [] => [replacement]
        else replacement :: decodeUtf8 (b :: rest₁)
      | [] => [replacement]
    else replacement :: decodeUtf8 rest

/-! ## Percent escapes -/

/-- The bytes of ASCII characters, escapes decoded; a percent sign without two hexadecimal
    digits stands for itself. -/
def percentBytes : List Char → List Nat
  | [] => []
  | '%' :: h :: l :: rest =>
    match hexValue? h, hexValue? l with
    | some hi, some lo => (hi * 16 + lo) :: percentBytes rest
    | _, _ => 0x25 :: percentBytes (h :: l :: rest)
  | c :: rest => c.toNat :: percentBytes rest

def isAscii (c : Char) : Bool :=
  c.toNat < 0x80

/-- Decode a text whose latest ASCII characters, reversed, are `run`. -/
def percentDecodeFrom : List Char → List Char → List Char
  | run, [] => decodeUtf8 (percentBytes run.reverse)
  | run, c :: rest =>
    if isAscii c then percentDecodeFrom (c :: run) rest
    else decodeUtf8 (percentBytes run.reverse) ++ c :: percentDecodeFrom [] rest

/-- A text with its percent escapes decoded. -/
def percentDecode (cs : List Char) : List Char :=
  percentDecodeFrom [] cs

end SchemaGrammar.Text
