import Valset.Proofs.Message.Fields

/-!
# Sequences of fields

Whatever fields are written one after the other, the reader gives them back when it is told their
kinds. On any other input it takes pieces from the front, one step after the other, and stands
behind the last piece that was there; a read fails exactly when less is left than it needs.
-/

namespace Valset
namespace Packed

/-- A field of a packed message. A byte string has a length that the reader knows, either from its
type or as a number, or stands behind its length. -/
inductive Field
  | u16 (value : UInt16)
  | u32 (value : UInt32)
  | u64 (value : UInt64)
  | bool (value : Bool)
  | fixed {width : Nat} (value : FixedBytes width)
  | plain (value : Bytes)
  | counted (value : Bytes)

/-- What the reader has to know of a field. -/
inductive FieldKind
  | u16
  | u32
  | u64
  | bool
  | fixed (width : Nat)
  | plain (size : Nat)
  | counted

namespace Field

/-- The kind of a field. -/
def kind : Field → FieldKind
  | .u16 _ => .u16
  | .u32 _ => .u32
  | .u64 _ => .u64
  | .bool _ => .bool
  | @fixed width _ => .fixed width
  | .plain value => .plain value.length
  | .counted _ => .counted

/-- The bytes of a field. -/
def write : Field → Bytes
  | .u16 value => Packed.u16 value
  | .u32 value => Packed.u32 value
  | .u64 value => Packed.u64 value
  | .bool value => Packed.bool value
  | .fixed value => value.bytes
  | .plain value => value
  | .counted value => Packed.counted value

/-- The length of a field fits into the number in front of it, if there is one. -/
def Fits : Field → Prop
  | .counted value => value.length < UInt32.size
  | _ => True

end Field

namespace FieldKind

/-- Reads a field of a kind. -/
def read : FieldKind → Reading Field
  | .u16 => .u16 <$> takeU16
  | .u32 => .u32 <$> takeU32
  | .u64 => .u64 <$> takeU64
  | .bool => .bool <$> takeBool
  | .fixed width => .fixed <$> takeFixed width
  | .plain size => .plain <$> take size
  | .counted => .counted <$> takeCounted

instance (kind : FieldKind) : Local kind.read := by
  cases kind <;> unfold read <;> infer_instance

/-- How many bytes are taken first. -/
def width : FieldKind → Nat
  | .u16 => 2
  | .u32 => 4
  | .u64 => 8
  | .bool => 1
  | .fixed width => width
  | .plain size => size
  | .counted => 4

/-- How many bytes a read needs of what is left. Behind the length of a byte string this depends on
what the length says. -/
def need : FieldKind → (rest : Bytes) → Nat
  | .counted, rest => if rest.length < 4 then 4 else 4 + Bytes.toNat (rest.take 4)
  | kind, _ => kind.width

/-- How many bytes a read takes of what is left although it fails: those of a length that is there
while the bytes behind it are not. -/
def kept : FieldKind → (rest : Bytes) → Nat
  | .counted, rest => if rest.length < 4 then 0 else 4
  | _, _ => 0

end FieldKind

/-! ## What was written is read -/

/-- Reads fields one after the other. -/
def readFields : List FieldKind → Reading (List Field)
  | [] => return []
  | kind :: kinds => do
    let field ← kind.read
    let fields ← readFields kinds
    return field :: fields

/-- Reads fields up to the end of the input. -/
def readAll (kinds : List FieldKind) : Reading (List Field) := do
  let fields ← readFields kinds
  finish
  return fields

/-- A field that fits is read as it was written. -/
theorem reads_write
    {field : Field}
    (fits : field.Fits) :
    Reads field.kind.read field.write field := by
  cases field with
  | u16 value => exact reads_map_iff.mpr ⟨value, reads_takeU16_iff.mpr rfl, rfl⟩
  | u32 value => exact reads_map_iff.mpr ⟨value, reads_takeU32_iff.mpr rfl, rfl⟩
  | u64 value => exact reads_map_iff.mpr ⟨value, reads_takeU64_iff.mpr rfl, rfl⟩
  | bool value =>
      refine reads_map_iff.mpr ⟨value, reads_takeBool_iff.mpr ⟨_, rfl, ?_⟩, rfl⟩
      cases value <;> rfl
  | fixed value => exact reads_map_iff.mpr ⟨value, reads_takeFixed_iff.mpr rfl, rfl⟩
  | plain value => exact reads_map_iff.mpr ⟨value, .take value, rfl⟩
  | counted value => exact reads_map_iff.mpr ⟨value, reads_takeCounted_iff.mpr ⟨rfl, fits⟩, rfl⟩

instance Local.readFields : (kinds : List FieldKind) → Local (readFields kinds)
  | [] => inferInstanceAs (Local (pure []))
  | kind :: kinds =>
      have := Local.readFields kinds
      inferInstanceAs (Local (kind.read >>= fun field => Packed.readFields kinds >>= fun fields =>
        pure (field :: fields)))

/-- Fields that fit are read one after the other as they were written. -/
theorem reads_writes
    {fields : List Field}
    (fit : ∀ field ∈ fields, field.Fits) :
    Reads (readFields (fields.map Field.kind)) (fields.flatMap Field.write) fields := by
  induction fields with
  | nil => exact .pure []
  | cons field fields inductionHypothesis =>
      obtain ⟨first, rest⟩ := List.forall_mem_cons.mp fit
      rw [List.flatMap_cons, List.map_cons, ← List.append_nil (fields.flatMap Field.write)]
      exact (reads_write first).bind ((inductionHypothesis rest).bind (.pure (field :: fields)))

/-- Fields are read back from what was written, and nothing is left. -/
theorem read_readAll_writes
    {fields : List Field}
    (fit : ∀ field ∈ fields, field.Fits) :
    read (readAll (fields.map Field.kind)) (fields.flatMap Field.write) = .ok fields :=
  read_finish_eq_ok_iff.mpr (reads_writes fit)

/-! ## Pieces of the input -/

namespace Cursor

/-- What is left of the input. -/
def rest (cursor : Cursor) : Bytes :=
  cursor.input.drop cursor.offset

/-- The same reader a number of bytes further on. -/
def advance (cursor : Cursor) (size : Nat) : Cursor :=
  { cursor with offset := cursor.offset + size }

/-- The error of a read that needs more bytes than are left. -/
def tooShort (cursor : Cursor) (size : Nat) : MessageError :=
  .ofLengths cursor.input.length (cursor.offset + size)

theorem rest_advance
    (cursor : Cursor)
    (size : Nat) :
    (cursor.advance size).rest = cursor.rest.drop size := by
  rw [rest, rest, List.drop_drop, advance]

theorem advance_advance
    (cursor : Cursor)
    (first second : Nat) :
    (cursor.advance first).advance second = cursor.advance (first + second) := by
  simp [advance, Nat.add_assoc]

theorem tooShort_advance
    (cursor : Cursor)
    (first second : Nat) :
    (cursor.advance first).tooShort second = cursor.tooShort (first + second) := by
  simp [advance, tooShort, Nat.add_assoc]

end Cursor

/-- The piece that a step takes from the input, if it is there. -/
def pieceOf (size : Nat) (cursor : Cursor) : List Bytes :=
  match (readFrom (take size) cursor).1 with
  | .ok piece => [piece]
  | .error _ => []

/-- The pieces that the steps of a read take from the input. -/
def FieldKind.pieces : FieldKind → Cursor → List Bytes
  | .counted, cursor =>
    pieceOf 4 cursor ++
      match readFrom takeU32 cursor with
      | (.ok size, later) => pieceOf size.toNat later
      | (.error _, _) => []
  | kind, cursor => pieceOf kind.width cursor

/-- The pieces that reads take from the input, one read after the other whatever comes of each. -/
def piecesOf : List FieldKind → Cursor → List Bytes
  | [], _ => []
  | kind :: kinds, cursor => kind.pieces cursor ++ piecesOf kinds (readFrom kind.read cursor).2

/-- Where the reader stands after reads, whatever came of each. -/
def placeAfter : List FieldKind → Cursor → Cursor
  | [], cursor => cursor
  | kind :: kinds, cursor => placeAfter kinds (readFrom kind.read cursor).2

/-- A reader has taken pieces from the front of what was left, and stands behind them. -/
structure Takes (cursor : Cursor) (pieces : List Bytes) (later : Cursor) : Prop where
  moved : later = cursor.advance pieces.flatten.length
  front : pieces.flatten <+: cursor.rest

namespace Takes

theorem refl (cursor : Cursor) : Takes cursor [] cursor where
  moved := rfl
  front := List.nil_prefix

theorem trans
    {cursor middle later : Cursor}
    {pieces further : List Bytes}
    (first : Takes cursor pieces middle)
    (second : Takes middle further later) :
    Takes cursor (pieces ++ further) later where
  moved := by
    rw [second.moved, first.moved, Cursor.advance_advance, List.flatten_append, List.length_append]
  front := by
    obtain ⟨left, split⟩ := first.front
    have behind := second.front
    rw [first.moved, Cursor.rest_advance, ← split, List.drop_left] at behind
    rw [List.flatten_append, ← split]
    exact (List.prefix_append_right_inj _).mpr behind

/-- From the start of an input on, the pieces are a front of the input and end where the reader
stands. -/
theorem from_start
    {input : Bytes}
    {pieces : List Bytes}
    {later : Cursor}
    (takes : Takes ⟨input, 0⟩ pieces later) :
    later.input = input ∧ later.offset ≤ input.length ∧
      pieces.flatten = input.take later.offset := by
  have front : pieces.flatten <+: input := takes.front
  have offset : later.offset = pieces.flatten.length := by
    rw [takes.moved, Cursor.advance, Nat.zero_add]
  refine ⟨by rw [takes.moved, Cursor.advance], ?_, ?_⟩
  · rw [offset]
    exact front.length_le
  · rw [offset]
    exact List.prefix_iff_eq_take.mp front

end Takes

theorem takes_take
    (size : Nat)
    (cursor : Cursor) :
    Takes cursor (pieceOf size cursor) (readFrom (take size) cursor).2 := by
  by_cases short : cursor.input.length < cursor.offset + size
  · rw [pieceOf, readFrom_take, if_pos short]
    exact .refl cursor
  · have sized : ((cursor.input.drop cursor.offset).take size).length = size := by
      rw [List.length_take, List.length_drop]
      omega
    rw [pieceOf, readFrom_take, if_neg short]
    refine ⟨?_, ?_⟩
    · rw [List.flatten_singleton, sized]
      rfl
    · rw [List.flatten_singleton]
      exact List.take_prefix _ _

/-! ## Single reads -/

namespace FieldKind

/-- All kinds but one are read in a single step. -/
theorem exists_read_eq_map
    {kind : FieldKind}
    (single : kind ≠ .counted) :
    ∃ change, kind.read = change <$> take kind.width := by
  cases kind with
  | counted => exact absurd rfl single
  | plain size => exact ⟨_, rfl⟩
  | u16 | u32 | u64 | bool | fixed => exact ⟨_, (comp_map _ _ _).symm⟩

theorem pieces_of_single
    {kind : FieldKind}
    (single : kind ≠ .counted)
    (cursor : Cursor) :
    kind.pieces cursor = pieceOf kind.width cursor := by
  cases kind <;> first | rfl | exact absurd rfl single

theorem need_of_single
    {kind : FieldKind}
    (single : kind ≠ .counted)
    (rest : Bytes) :
    kind.need rest = kind.width ∧ kind.kept rest = 0 := by
  cases kind <;> first | exact ⟨rfl, rfl⟩ | exact absurd rfl single

/-- A read takes its pieces from the front of what is left, whatever comes of it. -/
theorem takes_read
    (kind : FieldKind)
    (cursor : Cursor) :
    Takes cursor (kind.pieces cursor) (readFrom kind.read cursor).2 := by
  by_cases single : kind = .counted
  · obtain rfl := single
    have first : Takes cursor (pieceOf 4 cursor) (readFrom takeU32 cursor).2 := by
      rw [takeU32, readFrom_map]
      exact takes_take 4 cursor
    rw [read, readFrom_map, takeCounted, readFrom_bind, pieces]
    rcases outcome : readFrom takeU32 cursor with ⟨error | size, middle⟩ <;> rw [outcome] at first
    · exact first.trans (.refl middle)
    · exact first.trans (takes_take size.toNat middle)
  · obtain ⟨change, step⟩ := exists_read_eq_map single
    rw [pieces_of_single single, step, readFrom_map]
    exact takes_take _ _

end FieldKind

/-- Reads take their pieces from the front of the input. -/
theorem takes_reads
    (kinds : List FieldKind)
    (cursor : Cursor) :
    Takes cursor (piecesOf kinds cursor) (placeAfter kinds cursor) := by
  induction kinds generalizing cursor with
  | nil => exact .refl cursor
  | cons kind kinds inductionHypothesis =>
      exact (kind.takes_read cursor).trans (inductionHypothesis _)

/-! ## What a read needs -/

section Inside

variable
  {cursor : Cursor}
  (inside : cursor.offset ≤ cursor.input.length)

include inside

/-- Bytes are taken if there are enough of them behind the cursor. -/
theorem readFrom_take_of_inside (size : Nat) :
    readFrom (take size) cursor =
      if cursor.rest.length < size then (.error (cursor.tooShort size), cursor)
      else (.ok (cursor.rest.take size), cursor.advance size) := by
  have same : cursor.input.length < cursor.offset + size ↔ cursor.rest.length < size := by
    rw [Cursor.rest, List.length_drop]
    omega
  rw [readFrom_take]
  simp only [same]
  rfl

theorem readFrom_takeU32_of_inside :
    readFrom takeU32 cursor =
      if cursor.rest.length < 4 then (.error (cursor.tooShort 4), cursor)
      else (.ok (UInt32.ofNat (Bytes.toNat (cursor.rest.take 4))), cursor.advance 4) := by
  rw [takeU32, readFrom_map, readFrom_take_of_inside inside]
  split <;> rfl

/-- A read succeeds exactly when as much is left as it needs. Otherwise it fails and tells how long
the input would have had to be. -/
theorem readFrom_read_of_inside (kind : FieldKind) :
    if cursor.rest.length < kind.need cursor.rest then
      readFrom kind.read cursor = (.error (cursor.tooShort (kind.need cursor.rest)),
        cursor.advance (kind.kept cursor.rest))
    else
      ∃ field, readFrom kind.read cursor = (.ok field, cursor.advance (kind.need cursor.rest)) := by
  by_cases single : kind = .counted
  · obtain rfl := single
    rw [FieldKind.read, readFrom_map, takeCounted, readFrom_bind,
      readFrom_takeU32_of_inside inside, FieldKind.need, FieldKind.kept]
    by_cases noLength : cursor.rest.length < 4
    · simp only [noLength, if_true]
      rfl
    · have insideBehind : (cursor.advance 4).offset ≤ (cursor.advance 4).input.length := by
        rw [Cursor.rest, List.length_drop] at noLength
        simp only [Cursor.advance]
        omega
      have sized : (UInt32.ofNat (Bytes.toNat (cursor.rest.take 4))).toNat =
          Bytes.toNat (cursor.rest.take 4) := by
        refine UInt32.toNat_ofNat_of_lt' (Nat.lt_of_lt_of_le (Bytes.toNat_lt _) ?_)
        exact Nat.pow_le_pow_right (by decide) (List.length_take_le _ _)
      have body := readFrom_take_of_inside insideBehind (Bytes.toNat (cursor.rest.take 4))
      rw [Cursor.rest_advance, List.length_drop, Cursor.tooShort_advance,
        Cursor.advance_advance] at body
      simp only [noLength, if_false, sized, body]
      by_cases cut : cursor.rest.length - 4 < Bytes.toNat (cursor.rest.take 4)
      · rw [if_pos (by omega), if_pos cut]
        rfl
      · rw [if_neg (by omega), if_neg cut]
        exact ⟨_, rfl⟩
  · obtain ⟨change, step⟩ := FieldKind.exists_read_eq_map single
    obtain ⟨needed, nothing⟩ := FieldKind.need_of_single single cursor.rest
    rw [needed, nothing, step, readFrom_map, readFrom_take_of_inside inside]
    split
    · rfl
    · exact ⟨_, rfl⟩

end Inside

/-- The field of a read that succeeds is read from the bytes that it needs, wherever these stand. -/
theorem reads_of_ok
    {kind : FieldKind}
    {cursor : Cursor}
    {size : Nat}
    {field : Field}
    (inside : cursor.offset ≤ cursor.input.length)
    (accepted : readFrom kind.read cursor = (.ok field, cursor.advance size)) :
    Reads kind.read (cursor.rest.take size) field := by
  have placed : (cursor.input.take cursor.offset).length = cursor.offset :=
    List.length_take_of_le inside
  have split : cursor = ⟨cursor.input.take cursor.offset ++ cursor.rest,
      (cursor.input.take cursor.offset).length⟩ := by
    rw [Cursor.rest, List.take_append_drop, placed]
  rw [split] at accepted
  obtain ⟨bytes, after, rest_eq, moved, reads⟩ := Local.exists_reads accepted
  have sized : bytes.length = size := by
    have reached := congrArg Cursor.offset moved
    rw [List.length_append] at reached
    exact (Nat.add_left_cancel reached).symm
  rwa [rest_eq, List.take_left' sized]

/-- The reader mirrors the writer: fields of any kinds are read back from what was written, and
nothing is left. On any other input, whatever is read in whatever order, the reader stands inside
the input and the pieces that it took join to the front of the input up to there. The next read
fails exactly when fewer bytes are left than it needs. The reader then stands behind the last piece
that was there, and the error names the length that was needed. -/
theorem reader_mirrors_writer :
    (∀ fields : List Field, (∀ field ∈ fields, field.Fits) →
      read (readAll (fields.map Field.kind)) (fields.flatMap Field.write) = .ok fields) ∧
    ∀ (input : Bytes) (kinds : List FieldKind),
      let reached := placeAfter kinds ⟨input, 0⟩
      (reached.input = input ∧ reached.offset ≤ input.length ∧
        (piecesOf kinds ⟨input, 0⟩).flatten = input.take reached.offset) ∧
      ∀ kind : FieldKind,
        let rest := input.drop reached.offset
        let needed := kind.need rest
        (readFrom kind.read reached).2 = reached.advance (kind.pieces reached).flatten.length ∧
        (readFrom kind.read reached = (.error (.ofLengths input.length (reached.offset + needed)),
            reached.advance (kind.kept rest)) ↔
          rest.length < needed) ∧
        ((∃ field, readFrom kind.read reached = (.ok field, reached.advance needed) ∧
            Reads kind.read (rest.take needed) field) ↔
          needed ≤ rest.length) := by
  refine ⟨fun fields fit => read_readAll_writes fit, fun input kinds => ?_⟩
  obtain ⟨sameInput, inside, front⟩ := (takes_reads kinds ⟨input, 0⟩).from_start
  refine ⟨⟨sameInput, inside, front⟩, fun kind => ⟨(kind.takes_read _).moved, ?_⟩⟩
  generalize placeAfter kinds ⟨input, 0⟩ = reached at sameInput inside
  subst sameInput
  have outcome := readFrom_read_of_inside inside kind
  by_cases short : reached.rest.length < kind.need reached.rest
  · rw [if_pos short] at outcome
    constructor
    · exact iff_of_true outcome short
    · refine iff_of_false ?_ (Nat.not_le.mpr short)
      rintro ⟨field, accepted, -⟩
      rw [outcome] at accepted
      cases accepted
  · rw [if_neg short] at outcome
    obtain ⟨field, accepted⟩ := outcome
    constructor
    · refine iff_of_false ?_ short
      intro refused
      rw [accepted] at refused
      cases refused
    · exact iff_of_true ⟨field, accepted, reads_of_ok inside accepted⟩ (Nat.le_of_not_lt short)

/-- Fields of all kinds, a byte string of no bytes among them. -/
def sampleFields : List Field :=
  [.u16 7, .counted [1, 2, 3], .bool true, .u32 9, .fixed (FixedBytes.fit [4, 5] : FixedBytes 2),
    .plain [6], .counted [], .u64 8]

/-- The fields come back. Of a byte string that ends too early only the length is taken. -/
theorem sampleFields_mirrored :
    (∀ field ∈ sampleFields, field.Fits) ∧
      read (readAll (sampleFields.map Field.kind)) (sampleFields.flatMap Field.write) =
        .ok sampleFields ∧
      readFrom FieldKind.counted.read ⟨[0, 0, 0, 2, 9], 0⟩ =
        (.error (.ofLengths 5 6), ⟨[0, 0, 0, 2, 9], 4⟩) := by
  have fit : ∀ field ∈ sampleFields, field.Fits := by
    simp [sampleFields, Field.Fits, UInt32.size]
  have cut := (reader_mirrors_writer.2 [0, 0, 0, 2, 9] []).2 .counted
  exact ⟨fit, reader_mirrors_writer.1 sampleFields fit, cut.2.1.mpr (by decide)⟩

end Packed
end Valset
