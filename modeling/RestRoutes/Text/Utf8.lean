namespace RestRoutes.Text.Utf8

def encodeChar (c : Char) : List UInt8 :=
  let n := c.toNat
  let tail (k : Nat) : UInt8 := .ofNat (0x80 + k % 0x40)
  if n < 0x80 then [.ofNat n]
  else if n < 0x800 then [.ofNat (0xc0 + n / 0x40), tail n]
  else if n < 0x10000 then [.ofNat (0xe0 + n / 0x1000), tail (n / 0x40), tail n]
  else [.ofNat (0xf0 + n / 0x40000), tail (n / 0x1000), tail (n / 0x40), tail n]

def encode (s : List Char) : List UInt8 := s.flatMap encodeChar

/-- A character of which some bytes are read: how many are owed, what the next one may be, and the
bits so far. -/
structure Unfinished where
  owed : Nat
  low : UInt8
  high : UInt8
  bits : Nat

/-- The byte that opens a character. -/
inductive Lead where
  | whole (c : Char)
  | opens (u : Unfinished)
  | illFormed

/-- The bounds on the second byte keep out overlong forms, surrogates and numbers past the last one. -/
def lead (b : UInt8) : Lead :=
  if b < 0x80 then .whole (.ofNat b.toNat)
  else if b < 0xc2 then .illFormed
  else if b < 0xe0 then .opens ⟨1, 0x80, 0xbf, b.toNat - 0xc0⟩
  else if b < 0xf0 then
    .opens ⟨2, if b = 0xe0 then 0xa0 else 0x80, if b = 0xed then 0x9f else 0xbf, b.toNat - 0xe0⟩
  else if b < 0xf5 then
    .opens ⟨3, if b = 0xf0 then 0x90 else 0x80, if b = 0xf4 then 0x8f else 0xbf, b.toNat - 0xf0⟩
  else .illFormed

/-- What a byte that opens a character gives at once, and what it leaves unfinished. -/
def start (b : UInt8) : List (Option Char) × Option Unfinished :=
  match lead b with
  | .whole c => ([some c], none)
  | .opens u => ([], some u)
  | .illFormed => ([none], none)

/-- A byte that cannot go on with the unfinished character ends it and opens the next. -/
def step (u : Option Unfinished) (b : UInt8) : List (Option Char) × Option Unfinished :=
  match u with
  | none => start b
  | some u =>
    if u.low ≤ b && b ≤ u.high then
      let bits := u.bits * 0x40 + (b.toNat - 0x80)
      if u.owed ≤ 1 then ([some (.ofNat bits)], none)
      else ([], some ⟨u.owed - 1, 0x80, 0xbf, bits⟩)
    else (none :: (start b).1, (start b).2)

/-- The characters of a byte sequence, with `none` for each ill-formed part: one byte, or the longest
beginning of a well-formed character. -/
def partsFrom (u : Option Unfinished) : List UInt8 → List (Option Char)
  | [] => if u.isSome then [none] else []
  | b :: rest => (step u b).1 ++ partsFrom (step u b).2 rest

def parts (bytes : List UInt8) : List (Option Char) := partsFrom none bytes

/-- The text of well-formed bytes. -/
def decode? (bytes : List UInt8) : Option (List Char) := (parts bytes).mapM id

/-- The text of any bytes, with U+FFFD for each ill-formed part. -/
def decodeLossy (bytes : List UInt8) : List Char := (parts bytes).map (·.getD '\ufffd')

/-- The number of bytes of a text. -/
def size : List Char → Nat
  | [] => 0
  | c :: s => (encodeChar c).length + size s

end RestRoutes.Text.Utf8
