namespace FileEndpoints

abbrev Bytes := List UInt8

namespace Text

def encodeChar (c : Char) : Bytes :=
  let n := c.toNat
  if n < 0x80 then [UInt8.ofNat n]
  else if n < 0x800 then [UInt8.ofNat (0xC0 + n / 0x40), UInt8.ofNat (0x80 + n % 0x40)]
  else if n < 0x10000 then
    [UInt8.ofNat (0xE0 + n / 0x1000), UInt8.ofNat (0x80 + n / 0x40 % 0x40),
      UInt8.ofNat (0x80 + n % 0x40)]
  else
    [UInt8.ofNat (0xF0 + n / 0x40000), UInt8.ofNat (0x80 + n / 0x1000 % 0x40),
      UInt8.ofNat (0x80 + n / 0x40 % 0x40), UInt8.ofNat (0x80 + n % 0x40)]

def encodeChars (s : List Char) : Bytes :=
  s.flatMap encodeChar

def encode (s : String) : Bytes :=
  encodeChars s.toList

/-- Where a decoder stands between two bytes. It marks every ill-formed stretch: each maximal start
of a sequence that cannot be completed is one mark. -/
inductive Decoder where
  | ready
  /-- A sequence is open: its value so far, the number of bytes after the next one, and the range
  that the next byte must lie in. -/
  | within (value more lo hi : Nat)
deriving DecidableEq, Repr

/-- Takes the first byte of a sequence. A mark is `none`. -/
def Decoder.start (b : Nat) : List (Option Char) × Decoder :=
  if b < 0x80 then ([some (Char.ofNat b)], .ready)
  else if b < 0xC2 then ([none], .ready)
  else if b < 0xE0 then ([], .within (b - 0xC0) 0 0x80 0xBF)
  else if b = 0xE0 then ([], .within 0 1 0xA0 0xBF)
  else if b = 0xED then ([], .within 0xD 1 0x80 0x9F)
  else if b < 0xF0 then ([], .within (b - 0xE0) 1 0x80 0xBF)
  else if b = 0xF0 then ([], .within 0 2 0x90 0xBF)
  else if b < 0xF4 then ([], .within (b - 0xF0) 2 0x80 0xBF)
  else if b = 0xF4 then ([], .within 4 2 0x80 0x8F)
  else ([none], .ready)

/-- Takes one byte. A byte that cannot continue the open sequence closes it with a mark and is then
taken as a first byte. -/
def Decoder.step : Decoder → Nat → List (Option Char) × Decoder
  | .ready, b => start b
  | .within value more lo hi, b =>
    if lo ≤ b ∧ b ≤ hi then
      let value := value * 0x40 + (b - 0x80)
      match more with
      | 0 => ([some (Char.ofNat value)], .ready)
      | more + 1 => ([], .within value more 0x80 0xBF)
    else
      let (marks, next) := start b
      (none :: marks, next)

def Decoder.finish : Decoder → List (Option Char)
  | .ready => []
  | .within .. => [none]

/-- Takes bytes in turn. What has come out so far is kept in reverse. -/
def Decoder.run (d : Decoder) (out : List (Option Char)) : Bytes → List (Option Char)
  | [] => (d.finish.reverse ++ out).reverse
  | b :: bs =>
    let (more, next) := d.step b.toNat
    next.run (more.reverse ++ out) bs

/-- The characters of a byte string, with `none` for each ill-formed stretch. -/
def decodeMarked (bs : Bytes) : List (Option Char) :=
  Decoder.ready.run [] bs

def decode? (bs : Bytes) : Option String :=
  ((decodeMarked bs).mapM id).map String.ofList

def replacement : Char := '\uFFFD'

def decodeLossy (bs : Bytes) : String :=
  String.ofList ((decodeMarked bs).map fun c => c.getD replacement)

end Text

end FileEndpoints
