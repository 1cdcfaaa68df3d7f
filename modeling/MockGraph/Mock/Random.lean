set_option autoImplicit false

namespace MockGraph

/-- The sixteen words of a block of the stream. -/
structure Block where
  (w0 w1 w2 w3 w4 w5 w6 w7 w8 w9 w10 w11 w12 w13 w14 w15 : UInt32)
deriving DecidableEq, Inhabited, Repr

namespace Block

def toList (b : Block) : List UInt32 :=
  [b.w0, b.w1, b.w2, b.w3, b.w4, b.w5, b.w6, b.w7, b.w8, b.w9, b.w10, b.w11, b.w12, b.w13, b.w14,
    b.w15]

def add (a b : Block) : Block :=
  ⟨a.w0 + b.w0, a.w1 + b.w1, a.w2 + b.w2, a.w3 + b.w3, a.w4 + b.w4, a.w5 + b.w5, a.w6 + b.w6,
    a.w7 + b.w7, a.w8 + b.w8, a.w9 + b.w9, a.w10 + b.w10, a.w11 + b.w11, a.w12 + b.w12,
    a.w13 + b.w13, a.w14 + b.w14, a.w15 + b.w15⟩

def rotateLeft (word amount : UInt32) : UInt32 := (word <<< amount) ||| (word >>> (32 - amount))

/-- Mixes four words. -/
def quarter (a b c d : UInt32) : UInt32 × UInt32 × UInt32 × UInt32 :=
  let a := a + b
  let d := rotateLeft (d ^^^ a) 16
  let c := c + d
  let b := rotateLeft (b ^^^ c) 12
  let a := a + b
  let d := rotateLeft (d ^^^ a) 8
  let c := c + d
  let b := rotateLeft (b ^^^ c) 7
  (a, b, c, d)

/-- Mixes the columns of the square of words and then its diagonals. -/
def doubleRound (x : Block) : Block :=
  let (a0, a4, a8, a12) := quarter x.w0 x.w4 x.w8 x.w12
  let (a1, a5, a9, a13) := quarter x.w1 x.w5 x.w9 x.w13
  let (a2, a6, a10, a14) := quarter x.w2 x.w6 x.w10 x.w14
  let (a3, a7, a11, a15) := quarter x.w3 x.w7 x.w11 x.w15
  let (b0, b5, b10, b15) := quarter a0 a5 a10 a15
  let (b1, b6, b11, b12) := quarter a1 a6 a11 a12
  let (b2, b7, b8, b13) := quarter a2 a7 a8 a13
  let (b3, b4, b9, b14) := quarter a3 a4 a9 a14
  ⟨b0, b1, b2, b3, b4, b5, b6, b7, b8, b9, b10, b11, b12, b13, b14, b15⟩

/-- Twelve rounds of ChaCha on a block, added to the block itself. -/
def scramble (x : Block) : Block :=
  x.add (doubleRound (doubleRound (doubleRound (doubleRound (doubleRound (doubleRound x))))))

end Block

/-- A generator: its key, the number of the next block, and the words left of the last one. -/
structure Random where
  key : List UInt32
  counter : Nat
  words : List UInt32
deriving DecidableEq, Inhabited, Repr

namespace Random

/-- Steps of the congruential generator that stretches a seed into a key. -/
def keyWords : Nat → Nat → List UInt32
  | 0, _ => []
  | count + 1, state =>
    let state := (state * 6364136223846793005 + 11634580027462260723) % Nat.pow 2 64
    let mixed := (((state >>> 18) ^^^ state) >>> 27) % Nat.pow 2 32
    let amount := state >>> 59
    let word := (mixed >>> amount ||| mixed <<< (32 - amount)) % Nat.pow 2 32
    UInt32.ofNat word :: keyWords count state

def ofSeed (seed : Nat) : Random := ⟨keyWords 8 (seed % Nat.pow 2 64), 0, []⟩

/-- The block with a number in the stream of a key. -/
def block (key : List UInt32) (counter : Nat) : Block :=
  let word (i : Nat) : UInt32 := (key[i]?).getD 0
  Block.scramble ⟨0x61707865, 0x3320646e, 0x79622d32, 0x6b206574, word 0, word 1, word 2, word 3,
    word 4, word 5, word 6, word 7, UInt32.ofNat (counter % Nat.pow 2 32),
    UInt32.ofNat (counter / Nat.pow 2 32 % Nat.pow 2 32), 0, 0⟩

def next32 (random : Random) : Nat × Random :=
  match random.words with
  | word :: words => (word.toNat, { random with words })
  | [] =>
    match (block random.key random.counter).toList with
    | [] => (0, { random with counter := random.counter + 1 })
    | word :: words => (word.toNat, { random with counter := random.counter + 1, words })

/-- Two words, the lower one first. -/
def next64 (random : Random) : Nat × Random :=
  let (low, random) := random.next32
  let (high, random) := random.next32
  (high * Nat.pow 2 32 + low, random)

/-- The widths of the words that a range is drawn with. -/
inductive Width where
  | w32
  | w64
deriving DecidableEq, Repr

def Width.bits : Width → Nat
  | w32 => 32
  | w64 => 64

def next (random : Random) : Width → Nat × Random
  | .w32 => random.next32
  | .w64 => random.next64

/-- Draws until a word falls into the part of its range that `count` divides evenly. At least half
of all words do, so the attempts never run out in practice. -/
def pick (width : Width) (count zone : Nat) : Nat → Random → Nat × Random
  | 0, random => (0, random)
  | attempts + 1, random =>
    let (word, random) := random.next width
    let product := word * count
    if product % Nat.pow 2 width.bits ≤ zone then (product / Nat.pow 2 width.bits, random)
    else pick width count zone attempts random

def maxAttempts : Nat := 4096

/-- A number below `count`, every one as likely as another. -/
def below (width : Width) (count : Nat) (random : Random) : Nat × Random :=
  if count = 0 ∨ Nat.pow 2 width.bits ≤ count then random.next width
  else
    let shift := width.bits - 1 - count.log2
    pick width count (count * Nat.pow 2 shift - 1) maxAttempts random

/-- A number between two bounds, both included. -/
def between (width : Width) (low high : Nat) (random : Random) : Nat × Random :=
  let (offset, random) := random.below width (high + 1 - low)
  (low + offset, random)

end Random

end MockGraph
