import Valset.Hash.Keccak256

/-!
# The sponge lane by lane

The lanes of the sponge form five rows of five. Written out in rows, each step of the permutation
names the lanes that it reads, so that the hash of a given message can be evaluated inside a proof.
-/

namespace Valset
namespace Keccak256

/-! ## Rows -/

/-- Five lanes side by side. -/
structure Row where
  first : UInt64
  second : UInt64
  third : UInt64
  fourth : UInt64
  fifth : UInt64

namespace Row

/-- Two rows put together lane by lane. -/
def xor (row other : Row) : Row :=
  ⟨row.first ^^^ other.first, row.second ^^^ other.second, row.third ^^^ other.third,
    row.fourth ^^^ other.fourth, row.fifth ^^^ other.fifth⟩

/-- What each column gets from the parities of its neighbours. -/
def effect (parities : Row) : Row :=
  ⟨parities.fifth ^^^ rotateLeft parities.second 1,
    parities.first ^^^ rotateLeft parities.third 1,
    parities.second ^^^ rotateLeft parities.fourth 1,
    parities.third ^^^ rotateLeft parities.fifth 1,
    parities.fourth ^^^ rotateLeft parities.first 1⟩

/-- A change of every lane that may depend on its position, counted from a start. -/
def mapIdx (start : Nat) (change : Nat → UInt64 → UInt64) (row : Row) : Row :=
  ⟨change start row.first, change (start + 1) row.second, change (start + 2) row.third,
    change (start + 3) row.fourth, change (start + 4) row.fifth⟩

/-- Each lane of a row mixed with the next two. -/
def mix (row : Row) : Row :=
  ⟨row.first ^^^ (~~~row.second &&& row.third), row.second ^^^ (~~~row.third &&& row.fourth),
    row.third ^^^ (~~~row.fourth &&& row.fifth), row.fourth ^^^ (~~~row.fifth &&& row.first),
    row.fifth ^^^ (~~~row.first &&& row.second)⟩

end Row

/-- All lanes of the sponge. -/
structure Rows where
  first : Row
  second : Row
  third : Row
  fourth : Row
  fifth : Row

namespace Rows

/-- The lanes of all rows one behind the other. -/
def toArray : Rows → Array UInt64
  | ⟨⟨a₀, a₁, a₂, a₃, a₄⟩, ⟨b₀, b₁, b₂, b₃, b₄⟩, ⟨c₀, c₁, c₂, c₃, c₄⟩, ⟨d₀, d₁, d₂, d₃, d₄⟩,
      ⟨e₀, e₁, e₂, e₃, e₄⟩⟩ =>
    #[a₀, a₁, a₂, a₃, a₄, b₀, b₁, b₂, b₃, b₄, c₀, c₁, c₂, c₃, c₄, d₀, d₁, d₂, d₃, d₄,
      e₀, e₁, e₂, e₃, e₄]

/-- The same change of every row. -/
def map (change : Row → Row) (rows : Rows) : Rows :=
  ⟨change rows.first, change rows.second, change rows.third, change rows.fourth,
    change rows.fifth⟩

/-- The parities of the columns. -/
def parities (rows : Rows) : Row :=
  (((rows.first.xor rows.second).xor rows.third).xor rows.fourth).xor rows.fifth

/-- Each lane moved and turned. -/
def move : Rows → Rows
  | ⟨⟨a₀, a₁, a₂, a₃, a₄⟩, ⟨b₀, b₁, b₂, b₃, b₄⟩, ⟨c₀, c₁, c₂, c₃, c₄⟩, ⟨d₀, d₁, d₂, d₃, d₄⟩,
      ⟨e₀, e₁, e₂, e₃, e₄⟩⟩ =>
    ⟨⟨a₀, rotateLeft b₁ 44, rotateLeft c₂ 43, rotateLeft d₃ 21, rotateLeft e₄ 14⟩,
      ⟨rotateLeft a₃ 28, rotateLeft b₄ 20, rotateLeft c₀ 3, rotateLeft d₁ 45, rotateLeft e₂ 61⟩,
      ⟨rotateLeft a₁ 1, rotateLeft b₂ 6, rotateLeft c₃ 25, rotateLeft d₄ 8, rotateLeft e₀ 18⟩,
      ⟨rotateLeft a₄ 27, rotateLeft b₀ 36, rotateLeft c₁ 10, rotateLeft d₂ 15, rotateLeft e₃ 56⟩,
      ⟨rotateLeft a₂ 62, rotateLeft b₃ 55, rotateLeft c₄ 39, rotateLeft d₀ 41, rotateLeft e₁ 2⟩⟩

/-- One round of the permutation. -/
def round (rows : Rows) (constant : UInt64) : Rows :=
  let mixed := ((rows.map (·.xor rows.parities.effect)).move).map Row.mix
  { mixed with first := { mixed.first with first := mixed.first.first ^^^ constant } }

/-- A change of every lane that may depend on its position. -/
def mapIdx (change : Nat → UInt64 → UInt64) (rows : Rows) : Rows :=
  ⟨rows.first.mapIdx 0 change, rows.second.mapIdx 5 change, rows.third.mapIdx 10 change,
    rows.fourth.mapIdx 15 change, rows.fifth.mapIdx 20 change⟩

/-- Adds a piece of the message to the lanes and permutes them. -/
def absorbPiece (rows : Rows) (piece : Bytes) : Rows :=
  let words := (Bytes.chunks 8 piece).map fun word => UInt64.ofNat (littleEndian word)
  roundConstants.foldl round (rows.mapIdx fun index value => value ^^^ words.getD index 0)

/-- The first 32 bytes of the lanes. -/
def squeeze (rows : Rows) : Hash32 :=
  FixedBytes.fit
    ([rows.first.first, rows.first.second, rows.first.third, rows.first.fourth].flatMap
      fun lane => (Bytes.ofNat 8 lane.toNat).reverse)

/-- No lane set. -/
def zero : Rows :=
  let row : Row := ⟨0, 0, 0, 0, 0⟩
  ⟨row, row, row, row, row⟩

/-- The hash of a message. -/
def hash (message : Bytes) : Hash32 :=
  ((Bytes.chunks rate (pad message)).foldl absorbPiece zero).squeeze

/-! ## Rows instead of an array -/

theorem ofFn_five (lane : Fin 5 → UInt64) :
    Array.ofFn lane = #[lane 0, lane 1, lane 2, lane 3, lane 4] := rfl

theorem ofFn_twentyFive (lane : Fin 25 → UInt64) :
    Array.ofFn lane =
      #[lane 0, lane 1, lane 2, lane 3, lane 4, lane 5, lane 6, lane 7, lane 8, lane 9, lane 10,
        lane 11, lane 12, lane 13, lane 14, lane 15, lane 16, lane 17, lane 18, lane 19, lane 20,
        lane 21, lane 22, lane 23, lane 24] := by
  apply Array.ext'
  rw [Array.toList_ofFn]
  rfl

theorem map_moves (lane : Nat × UInt64 → UInt64) :
    moves.map lane =
      #[lane (0, 0), lane (6, 44), lane (12, 43), lane (18, 21), lane (24, 14), lane (3, 28),
        lane (9, 20), lane (10, 3), lane (16, 45), lane (22, 61), lane (1, 1), lane (7, 6),
        lane (13, 25), lane (19, 8), lane (20, 18), lane (4, 27), lane (5, 36), lane (11, 10),
        lane (17, 15), lane (23, 56), lane (2, 62), lane (8, 55), lane (14, 39), lane (15, 41),
        lane (21, 2)] := by
  simp [moves]

theorem round_toArray
    (rows : Rows)
    (constant : UInt64) :
    Keccak256.round rows.toArray constant = (rows.round constant).toArray := by
  rw [Keccak256.round]
  simp only [ofFn_five, ofFn_twentyFive, map_moves]
  rfl

theorem permute_toArray (rows : Rows) :
    permute rows.toArray = (roundConstants.foldl round rows).toArray := by
  rw [permute]
  induction roundConstants generalizing rows with
  | nil => rfl
  | cons constant constants inductionHypothesis =>
      rw [List.foldl_cons, List.foldl_cons, round_toArray, inductionHypothesis]

theorem mapIdx_toArray
    (rows : Rows)
    (change : Nat → UInt64 → UInt64) :
    rows.toArray.mapIdx change = (rows.mapIdx change).toArray := by
  simp [toArray, mapIdx, Row.mapIdx]

theorem absorbPiece_toArray
    (rows : Rows)
    (piece : Bytes) :
    Keccak256.absorbPiece rows.toArray piece = (rows.absorbPiece piece).toArray := by
  rw [Keccak256.absorbPiece, mapIdx_toArray, permute_toArray, absorbPiece]

theorem foldl_absorbPiece_toArray
    (rows : Rows)
    (pieces : List Bytes) :
    pieces.foldl Keccak256.absorbPiece rows.toArray =
      (pieces.foldl absorbPiece rows).toArray := by
  induction pieces generalizing rows with
  | nil => rfl
  | cons piece pieces inductionHypothesis =>
      rw [List.foldl_cons, List.foldl_cons, absorbPiece_toArray, inductionHypothesis]

theorem squeeze_toArray (rows : Rows) : Keccak256.squeeze rows.toArray = rows.squeeze := rfl

theorem toArray_zero : zero.toArray = Array.replicate 25 0 := by
  decide

/-- The hash of a message may be evaluated row by row. -/
theorem hash_eq (message : Bytes) : Keccak256.hash message = hash message := by
  rw [Keccak256.hash, ← toArray_zero, foldl_absorbPiece_toArray, squeeze_toArray, hash]

end Rows
end Keccak256
end Valset
