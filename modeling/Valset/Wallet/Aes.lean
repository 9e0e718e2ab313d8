import Valset.Bytes

/-!
# AES with keys of 128 bits

The block cipher (FIPS 197) and its counter mode, in which the encrypted values of a counter are
added to a text. Encrypting twice in counter mode gives back the text.
-/

namespace Valset
namespace Aes

/-- A byte as a polynomial, times the variable. -/
def double (x : UInt8) : UInt8 :=
  if x &&& 0x80 = 0 then x <<< 1 else (x <<< 1) ^^^ 0x1b

/-- The product of two bytes as polynomials, going through `count` bits of the second one. -/
def times : (count : Nat) → (x y : UInt8) → UInt8
  | 0, _, _ => 0
  | count + 1, x, y =>
    (if y &&& 1 = 0 then 0 else x) ^^^ times count (double x) (y >>> 1)

/-- The product of two bytes as polynomials. -/
def mul (x y : UInt8) : UInt8 :=
  times 8 x y

/-- The inverse of a byte as a polynomial; zero stays. -/
def inverse (x : UInt8) : UInt8 :=
  let x2 := mul x x
  let x4 := mul x2 x2
  let x8 := mul x4 x4
  let x16 := mul x8 x8
  let x32 := mul x16 x16
  let x64 := mul x32 x32
  let x128 := mul x64 x64
  mul x128 (mul x64 (mul x32 (mul x16 (mul x8 (mul x4 x2)))))

/-- The bits of a byte turned to the left. -/
def rotate (x turn : UInt8) : UInt8 :=
  (x <<< turn) ||| (x >>> (8 - turn))

/-- The substitute of a byte. -/
def substitute (x : UInt8) : UInt8 :=
  let y := inverse x
  y ^^^ rotate y 1 ^^^ rotate y 2 ^^^ rotate y 3 ^^^ rotate y 4 ^^^ 0x63

/-- The bits in which two byte strings differ. -/
def xor (x y : Bytes) : Bytes :=
  x.zipWith (· ^^^ ·) y

/-! ## Keys of the rounds -/

/-- A word turned by one byte. -/
def turnWord : Bytes → Bytes
  | [] => []
  | first :: rest => rest ++ [first]

/-- The words of a key of a round, each added to the one before. -/
def addWords (last : Bytes) : List Bytes → List Bytes
  | [] => []
  | word :: rest =>
    let next := xor last word
    next :: addWords next rest

/-- The key of the round after one with a given key; the constant tells the rounds apart. -/
def nextKey (constant : UInt8) (key : List Bytes) : List Bytes :=
  let last := (turnWord (key.getLast?.getD [])).map substitute
  addWords (xor last [constant, 0, 0, 0]) key

/-- The keys of `count` rounds after one with a given key. -/
def laterKeys : (count : Nat) → (constant : UInt8) → List Bytes → List Bytes
  | 0, _, _ => []
  | count + 1, constant, key =>
    let next := nextKey constant key
    next.flatten :: laterKeys count (double constant) next

/-- The keys of the ten rounds. -/
def roundKeys (key : Bytes) : List Bytes :=
  laterKeys 10 1 (Bytes.chunks 4 key)

/-! ## Blocks -/

/-- Turns the rows of the square of bytes, each by its number. -/
def shiftRows (block : Bytes) : Bytes :=
  let bytes := block.toArray
  (List.range 16).map fun index => bytes.getD ((index + 4 * (index % 4)) % 16) 0

/-- Mixes a column of four bytes. -/
def mixColumn : Bytes → Bytes
  | [a, b, c, d] => [
    double a ^^^ double b ^^^ b ^^^ c ^^^ d,
    a ^^^ double b ^^^ double c ^^^ c ^^^ d,
    a ^^^ b ^^^ double c ^^^ double d ^^^ d,
    double a ^^^ a ^^^ b ^^^ c ^^^ double d]
  | other => other

/-- Mixes all columns. -/
def mixColumns (block : Bytes) : Bytes :=
  (Bytes.chunks 4 block).flatMap mixColumn

/-- The rounds with given keys; the last one does not mix columns. -/
def rounds : (keys : List Bytes) → Bytes → Bytes
  | [], block => block
  | [key], block => xor (shiftRows (block.map substitute)) key
  | key :: rest, block => rounds rest (xor (mixColumns (shiftRows (block.map substitute))) key)

/-- The encrypted block of sixteen bytes. -/
def encryptBlock (key block : Bytes) : Bytes :=
  rounds (roundKeys key) (xor block key)

/-- The text with the encrypted values of a counter added, `count` blocks of them. -/
def counterBlocks (key : Bytes) : (count counter : Nat) → Bytes
  | 0, _ => []
  | count + 1, counter =>
    encryptBlock key (Bytes.ofNat 16 counter) ++ counterBlocks key count (counter + 1)

/-- A text in counter mode, the counter starting at a given value of sixteen bytes. -/
def counterMode (key start text : Bytes) : Bytes :=
  xor text (counterBlocks key ((text.length + 15) / 16) (Bytes.toNat start))

end Aes
end Valset
