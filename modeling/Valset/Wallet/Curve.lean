/-!
# The curve of signing keys

The points of `y ^ 2 = x ^ 3 + 7` over the numbers modulo a prime (secp256k1). The public key of a
number is that multiple of a fixed point.
-/

namespace Valset
namespace Curve

/-- The prime modulo which coordinates are taken. -/
def prime : Nat := Nat.pow 2 256 - Nat.pow 2 32 - 977

/-- The number of points. -/
def order : Nat := 0xfffffffffffffffffffffffffffffffebaaedce6af48a03bbfd25e8cd0364141

/-- A point in projective form: it stands for `(x / z ^ 2, y / z ^ 3)`, or for the point at infinity
when `z` is zero. -/
structure Point where
  x : Nat
  y : Nat
  z : Nat
deriving DecidableEq, Repr

namespace Point

/-- The point at infinity. -/
def infinity : Point :=
  ⟨1, 1, 0⟩

/-- The fixed point of which public keys are multiples. -/
def base : Point where
  x := 0x79be667ef9dcbbac55a06295ce870b07029bfcdb2dce28d959f2815b16f81798
  y := 0x483ada7726a3c4655da4fbfc0e1108a8fd17b448a68554199c47d08ffb10d4b8
  z := 1

end Point

/-- The difference of two coordinates. -/
def sub (a b : Nat) : Nat :=
  (a + (prime - b % prime)) % prime

/-- A coordinate to a power, going through the bits of the exponent. -/
def power (a : Nat) : (fuel exponent : Nat) → Nat
  | 0, _ => 1
  | fuel + 1, exponent =>
    let root := power (a * a % prime) fuel (exponent / 2)
    if exponent % 2 = 0 then root else a * root % prime

/-- The inverse of a coordinate. -/
def inverse (a : Nat) : Nat :=
  power a 256 (prime - 2)

namespace Point

/-- Twice a point. -/
def twice (p : Point) : Point :=
  if p.z = 0 then infinity
  else
    let square := p.y * p.y % prime
    let s := 4 * p.x * square % prime
    let m := 3 * p.x * p.x % prime
    let x := sub (m * m) (2 * s)
    let y := sub (m * sub s x) (8 * square * square)
    ⟨x, y, 2 * p.y * p.z % prime⟩

/-- The sum of two points. -/
def add (p q : Point) : Point :=
  if p.z = 0 then q
  else if q.z = 0 then p
  else
    let pz2 := p.z * p.z % prime
    let qz2 := q.z * q.z % prime
    let u := p.x * qz2 % prime
    let s := p.y * qz2 * q.z % prime
    let h := sub (q.x * pz2) u
    let r := sub (q.y * pz2 * p.z) s
    if h = 0 then if r = 0 then p.twice else infinity
    else
      let h2 := h * h % prime
      let h3 := h2 * h % prime
      let v := u * h2 % prime
      let x := sub (sub (r * r) h3) (2 * v)
      let y := sub (r * sub v x) (s * h3)
      ⟨x, y, h * p.z * q.z % prime⟩

/-- A multiple of a point, going through the bits of the factor. -/
def multiple (p : Point) : (fuel factor : Nat) → Point
  | 0, _ => infinity
  | fuel + 1, factor =>
    let rest := multiple p.twice fuel (factor / 2)
    if factor % 2 = 0 then rest else add p rest

/-- The coordinates of a point other than the one at infinity. -/
def affine (p : Point) : Nat × Nat :=
  let inv := inverse p.z
  let inv2 := inv * inv % prime
  (p.x * inv2 % prime, p.y * inv2 * inv % prime)

end Point

/-- The coordinates of the public key of a number. -/
def publicKey (secret : Nat) : Nat × Nat :=
  (Point.base.multiple 256 secret).affine

end Curve
end Valset
