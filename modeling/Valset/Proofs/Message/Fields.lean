import Mathlib.Data.List.Basic
import Valset.Message.Packed
import Valset.Proofs.Bytes

/-!
# What readings of fields accept

A reading of packed fields is local: it looks at the bytes that it takes and at nothing else. What
it accepts is therefore a relation between byte strings and values, and the relation of a reading is
put together from those of its fields. For each field it is the written form of the field.
-/

namespace Valset
namespace Packed

variable {α β : Type}

/-! ## Steps of a reading -/

/-- What a reading gives from a place in an input on, and where it stops. -/
def readFrom (field : Reading α) (cursor : Cursor) : Except MessageError α × Cursor :=
  field.run cursor

theorem readFrom_pure
    (value : α)
    (cursor : Cursor) :
    readFrom (pure value) cursor = (.ok value, cursor) := rfl

theorem readFrom_throw
    (error : MessageError)
    (cursor : Cursor) :
    readFrom (throw error : Reading α) cursor = (.error error, cursor) := rfl

/-- The next field is read where the last one ended. -/
theorem readFrom_bind
    (field : Reading α)
    (next : α → Reading β)
    (cursor : Cursor) :
    readFrom (field >>= next) cursor = match readFrom field cursor with
      | (.ok value, later) => readFrom (next value) later
      | (.error error, later) => (.error error, later) := by
  change (match readFrom field cursor with
    | (result, later) => (ExceptT.bindCont next result : StateM Cursor _) later) = _
  rcases readFrom field cursor with ⟨_ | value, later⟩ <;> rfl

theorem readFrom_map
    (change : α → β)
    (field : Reading α)
    (cursor : Cursor) :
    readFrom (change <$> field) cursor =
      ((readFrom field cursor).1.map change, (readFrom field cursor).2) := by
  rw [map_eq_pure_bind, readFrom_bind]
  rcases readFrom field cursor with ⟨_ | value, later⟩ <;> rfl

/-- Fields are read one after the other if each of them succeeds. -/
theorem readFrom_bind_eq_ok_iff
    {field : Reading α}
    {next : α → Reading β}
    {cursor later : Cursor}
    {result : β} :
    readFrom (field >>= next) cursor = (.ok result, later) ↔
      ∃ value middle, readFrom field cursor = (.ok value, middle) ∧
        readFrom (next value) middle = (.ok result, later) := by
  rw [readFrom_bind]
  rcases readFrom field cursor with ⟨_ | value, middle⟩
  · simp
  · simp only [Prod.mk.injEq, Except.ok.injEq]
    constructor
    · exact fun ended => ⟨value, middle, ⟨rfl, rfl⟩, ended⟩
    · rintro ⟨_, _, ⟨rfl, rfl⟩, ended⟩
      exact ended

/-- Bytes are taken if there are enough of them left. -/
theorem readFrom_take
    (size : Nat)
    (cursor : Cursor) :
    readFrom (take size) cursor =
      if cursor.input.length < cursor.offset + size then
        (.error (.ofLengths cursor.input.length (cursor.offset + size)), cursor)
      else
        (.ok ((cursor.input.drop cursor.offset).take size),
          { cursor with offset := cursor.offset + size }) := by
  rw [take, readFrom_bind]
  change readFrom (if cursor.input.length < cursor.offset + size then _ else _) cursor = _
  split <;> rfl

/-- The end is reached when all bytes have been taken. -/
theorem readFrom_finish (cursor : Cursor) :
    readFrom finish cursor =
      if cursor.offset ≠ cursor.input.length then
        (.error (.ofLengths cursor.input.length cursor.offset), cursor)
      else (.ok (), cursor) := by
  rw [finish, readFrom_bind]
  change readFrom (if cursor.offset ≠ cursor.input.length then _ else _) cursor = _
  split <;> rfl

/-! ## Local readings -/

/-- A reading takes a value from bytes, wherever in an input they stand. -/
def Reads (field : Reading α) (bytes : Bytes) (value : α) : Prop :=
  ∀ before after, readFrom field ⟨before ++ (bytes ++ after), before.length⟩ =
    (.ok value, ⟨before ++ (bytes ++ after), (before ++ bytes).length⟩)

theorem Reads.pure (value : α) : Reads (pure value) [] value := by
  intro before after
  simp [readFrom_pure]

/-- Fields one after the other read the bytes of one behind the bytes of the other. -/
theorem Reads.bind
    {field : Reading α}
    {next : α → Reading β}
    {front back : Bytes}
    {value : α}
    {result : β}
    (first : Reads field front value)
    (second : Reads (next value) back result) :
    Reads (field >>= next) (front ++ back) result := by
  intro before after
  rw [List.append_assoc]
  refine readFrom_bind_eq_ok_iff.mpr ⟨value, _, first before (back ++ after), ?_⟩
  simpa using second (before ++ front) after

/-- A reading takes at most one value from given bytes. -/
theorem Reads.unique
    {field : Reading α}
    {bytes : Bytes}
    {value other : α}
    (reads : Reads field bytes value)
    (readsOther : Reads field bytes other) :
    value = other := by
  have accepted := reads [] []
  rw [readsOther [] []] at accepted
  exact (Except.ok.inj (Prod.mk.inj accepted).1).symm

/-- A reading that looks at the bytes that it takes and at nothing else. -/
class Local (field : Reading α) : Prop where
  exists_reads
    {before rest : Bytes}
    {value : α}
    {later : Cursor}
    (accepted : readFrom field ⟨before ++ rest, before.length⟩ = (.ok value, later)) :
    ∃ bytes after, rest = bytes ++ after ∧ later = ⟨before ++ rest, (before ++ bytes).length⟩ ∧
      Reads field bytes value

instance (value : α) : Local (pure value) where
  exists_reads {before rest found later} accepted := by
    rw [readFrom_pure, Prod.mk.injEq, Except.ok.injEq] at accepted
    obtain ⟨rfl, rfl⟩ := accepted
    exact ⟨[], rest, rfl, by rw [List.append_nil], .pure value⟩

instance (error : MessageError) : Local (throw error : Reading α) where
  exists_reads accepted := by
    rw [readFrom_throw] at accepted
    cases (Prod.mk.inj accepted).1

instance
    (field : Reading α)
    (next : α → Reading β)
    [Local field]
    [∀ value, Local (next value)] :
    Local (field >>= next) where
  exists_reads {before rest result later} accepted := by
    obtain ⟨value, middle, first, second⟩ := readFrom_bind_eq_ok_iff.mp accepted
    obtain ⟨front, behind, rfl, rfl, readsFront⟩ := Local.exists_reads first
    rw [← List.append_assoc] at second
    obtain ⟨back, after, rfl, rfl, readsBack⟩ := Local.exists_reads second
    exact ⟨front ++ back, after, by simp, by simp, readsFront.bind readsBack⟩

instance
    (condition : Prop)
    [Decidable condition]
    (one other : Reading α)
    [Local one]
    [Local other] :
    Local (if condition then one else other) := by
  split <;> infer_instance

instance
    (change : α → β)
    (field : Reading α)
    [Local field] :
    Local (change <$> field) := by
  rw [map_eq_pure_bind]
  infer_instance

/-- Nothing is read where a value is given. -/
@[simp] theorem reads_pure_iff
    {value result : α}
    {bytes : Bytes} :
    Reads (pure value) bytes result ↔ bytes = [] ∧ result = value := by
  constructor
  · intro reads
    have accepted := reads [] []
    simp only [readFrom_pure, List.append_nil, List.nil_append, List.length_nil, Prod.mk.injEq,
      Except.ok.injEq, Cursor.mk.injEq, true_and] at accepted
    exact ⟨List.eq_nil_of_length_eq_zero accepted.2.symm, accepted.1.symm⟩
  · rintro ⟨rfl, rfl⟩
    exact .pure _

/-- A failure reads nothing. -/
@[simp] theorem not_reads_throw
    {error : MessageError}
    {bytes : Bytes}
    {value : α} :
    ¬ Reads (throw error) bytes value := by
  intro reads
  have accepted := reads [] []
  rw [readFrom_throw] at accepted
  cases (Prod.mk.inj accepted).1

/-- Two readings in a row take their bytes one after the other. -/
@[simp] theorem reads_bind_iff
    {field : Reading α}
    {next : α → Reading β}
    [Local field]
    [∀ value, Local (next value)]
    {bytes : Bytes}
    {result : β} :
    Reads (field >>= next) bytes result ↔
      ∃ value front back, bytes = front ++ back ∧ Reads field front value ∧
        Reads (next value) back result := by
  constructor
  · intro reads
    obtain ⟨value, middle, first, second⟩ := readFrom_bind_eq_ok_iff.mp (reads [] [])
    obtain ⟨front, behind, split, rfl, readsFront⟩ := Local.exists_reads first
    rw [split, ← List.append_assoc] at second
    obtain ⟨back, after, rfl, ended, readsBack⟩ := Local.exists_reads second
    have whole : bytes.length = (front ++ back).length := by
      simpa using congrArg Cursor.offset ended
    have nothing : after = [] := by
      apply List.eq_nil_of_length_eq_zero
      have total := congrArg List.length split
      simp only [List.length_append, List.length_nil] at total whole
      omega
    refine ⟨value, front, back, ?_, readsFront, readsBack⟩
    simpa [nothing] using split
  · rintro ⟨value, front, back, rfl, first, second⟩
    exact first.bind second

/-- A field that is changed reads the same bytes. -/
@[simp] theorem reads_map_iff
    {change : α → β}
    {field : Reading α}
    [Local field]
    {bytes : Bytes}
    {result : β} :
    Reads (change <$> field) bytes result ↔
      ∃ value, Reads field bytes value ∧ result = change value := by
  rw [map_eq_pure_bind, reads_bind_iff]
  simp

@[simp] theorem reads_ite_iff
    {condition : Prop}
    [Decidable condition]
    {one other : Reading α}
    {bytes : Bytes}
    {value : α} :
    Reads (if condition then one else other) bytes value ↔
      if condition then Reads one bytes value else Reads other bytes value := by
  split <;> rfl

/-! ## Whole inputs -/

/-- Reading an input begins at its first byte. -/
theorem read_eq_ok_iff_readFrom
    {field : Reading α}
    {input : Bytes}
    {value : α} :
    read field input = .ok value ↔ ∃ later, readFrom field ⟨input, 0⟩ = (.ok value, later) :=
  ⟨fun accepted => ⟨_, Prod.ext accepted rfl⟩, fun ⟨_, accepted⟩ => congrArg Prod.fst accepted⟩

/-- What is read from the start of an input is read from some bytes at its front. -/
theorem exists_reads_of_start
    {field : Reading α}
    [Local field]
    {input : Bytes}
    {value : α}
    {later : Cursor}
    (accepted : readFrom field ⟨input, 0⟩ = (.ok value, later)) :
    ∃ bytes after, input = bytes ++ after ∧ later = ⟨input, bytes.length⟩ ∧
      Reads field bytes value := by
  have behindNothing : readFrom field ⟨[] ++ input, ([] : Bytes).length⟩ = (.ok value, later) :=
    accepted
  exact Local.exists_reads behindNothing

/-- What is read from an input is read from some bytes at its front. -/
theorem read_eq_ok_iff
    {field : Reading α}
    [Local field]
    {input : Bytes}
    {value : α} :
    read field input = .ok value ↔
      ∃ bytes after, input = bytes ++ after ∧ Reads field bytes value := by
  rw [read_eq_ok_iff_readFrom]
  constructor
  · rintro ⟨later, accepted⟩
    obtain ⟨bytes, after, split, _, reads⟩ := exists_reads_of_start accepted
    exact ⟨bytes, after, split, reads⟩
  · rintro ⟨bytes, after, rfl, reads⟩
    exact ⟨_, reads [] after⟩

/-- When nothing may remain behind a field, it is read from the whole input. -/
theorem read_finish_eq_ok_iff
    {field : Reading α}
    [Local field]
    {input : Bytes}
    {value : α} :
    read (do
      let found ← field
      finish
      return found) input = .ok value ↔ Reads field input value := by
  simp only [read_eq_ok_iff_readFrom, readFrom_bind_eq_ok_iff, readFrom_finish, readFrom_pure]
  constructor
  · rintro ⟨later, found, middle, first, _, _, atEnd, last⟩
    obtain ⟨bytes, after, rfl, rfl, reads⟩ := exists_reads_of_start first
    split at atEnd
    · cases (Prod.mk.inj atEnd).1
    · rename_i ended
      have nothing : after = [] := by
        apply List.eq_nil_of_length_eq_zero
        simpa using ended
      rw [nothing, List.append_nil, ← Except.ok.inj (Prod.mk.inj last).1]
      exact reads
  · intro reads
    have reached : readFrom field ⟨input, 0⟩ = (.ok value, ⟨input, input.length⟩) := by
      simpa using reads [] []
    refine ⟨⟨input, input.length⟩, value, _, reached, (), _, ?_, rfl⟩
    rw [if_neg (by simp)]

/-! ## Byte strings -/

theorem Reads.take (bytes : Bytes) : Reads (take bytes.length) bytes bytes := by
  intro before after
  rw [readFrom_take, if_neg (by simp)]
  simp

instance (size : Nat) : Local (take size) where
  exists_reads {before rest value later} accepted := by
    rw [readFrom_take] at accepted
    split at accepted
    · cases (Prod.mk.inj accepted).1
    · rename_i enough
      have sized : (rest.take size).length = size := by
        simp only [List.length_append] at enough
        rw [List.length_take]
        omega
      rw [List.drop_left, Prod.mk.injEq, Except.ok.injEq] at accepted
      obtain ⟨rfl, rfl⟩ := accepted
      refine ⟨rest.take size, rest.drop size, (List.take_append_drop size rest).symm, ?_, ?_⟩
      · rw [List.length_append, sized]
      · have reads := Reads.take (rest.take size)
        rwa [sized] at reads

/-- Taking bytes reads just these bytes. -/
@[simp] theorem reads_take_iff
    {size : Nat}
    {bytes value : Bytes} :
    Reads (take size) bytes value ↔ bytes = value ∧ value.length = size := by
  constructor
  · intro reads
    have accepted := reads [] []
    rw [readFrom_take] at accepted
    split at accepted
    · cases (Prod.mk.inj accepted).1
    · simp only [List.append_nil, List.nil_append, List.length_nil, List.drop_zero, Nat.zero_add,
        Prod.mk.injEq, Except.ok.injEq, Cursor.mk.injEq, true_and] at accepted
      obtain ⟨rfl, rfl⟩ := accepted
      simp
  · rintro ⟨rfl, rfl⟩
    exact .take bytes

instance (width : Nat) : Local (takeFixed width) :=
  inferInstanceAs (Local (FixedBytes.fit <$> take width))

/-- A field of a fixed length reads its bytes. -/
@[simp] theorem reads_takeFixed_iff
    {width : Nat}
    {bytes : Bytes}
    {value : FixedBytes width} :
    Reads (takeFixed width) bytes value ↔ bytes = value.bytes := by
  rw [takeFixed, reads_map_iff]
  simp only [reads_take_iff]
  constructor
  · rintro ⟨found, ⟨rfl, sized⟩, rfl⟩
    exact (FixedBytes.fit_eq_iff sized).mp rfl
  · rintro rfl
    exact ⟨value.bytes, ⟨rfl, value.length_bytes⟩,
      ((FixedBytes.fit_eq_iff value.length_bytes).mpr rfl).symm⟩

/-! ## Numbers -/

/-- A number that is read from its bytes is read from its written form. -/
theorem reads_number_iff
    {width : Nat}
    {ofNat : Nat → α}
    {toNat : α → Nat}
    (toNat_ofNat : ∀ value < 256 ^ width, toNat (ofNat value) = value)
    (ofNat_toNat : ∀ value, ofNat (toNat value) = value)
    (toNat_lt : ∀ value, toNat value < 256 ^ width)
    {bytes : Bytes}
    {value : α} :
    Reads ((fun bytes => ofNat (Bytes.toNat bytes)) <$> take width) bytes value ↔
      bytes = Bytes.ofNat width (toNat value) := by
  rw [reads_map_iff]
  simp only [reads_take_iff]
  constructor
  · rintro ⟨found, ⟨rfl, sized⟩, rfl⟩
    have small := Bytes.toNat_lt bytes
    rw [sized] at small
    rw [toNat_ofNat _ small, ← sized, Bytes.ofNat_toNat]
  · rintro rfl
    refine ⟨_, ⟨rfl, Bytes.length_ofNat _ _⟩, ?_⟩
    rw [Bytes.toNat_ofNat, Nat.mod_eq_of_lt (toNat_lt value), ofNat_toNat]

instance : Local takeU16 :=
  inferInstanceAs (Local ((fun bytes => UInt16.ofNat (Bytes.toNat bytes)) <$> take 2))

instance : Local takeU32 :=
  inferInstanceAs (Local ((fun bytes => UInt32.ofNat (Bytes.toNat bytes)) <$> take 4))

instance : Local takeU64 :=
  inferInstanceAs (Local ((fun bytes => UInt64.ofNat (Bytes.toNat bytes)) <$> take 8))

instance : Local takeBool :=
  inferInstanceAs (Local ((fun bytes => bytes != [0]) <$> take 1))

/-- A field of two bytes reads its number. -/
@[simp] theorem reads_takeU16_iff
    {bytes : Bytes}
    {value : UInt16} :
    Reads takeU16 bytes value ↔ bytes = u16 value :=
  reads_number_iff (fun _ small => UInt16.toNat_ofNat_of_lt' small)
    (fun _ => UInt16.ofNat_toNat) UInt16.toNat_lt

/-- A field of four bytes reads its number. -/
@[simp] theorem reads_takeU32_iff
    {bytes : Bytes}
    {value : UInt32} :
    Reads takeU32 bytes value ↔ bytes = u32 value :=
  reads_number_iff (fun _ small => UInt32.toNat_ofNat_of_lt' small)
    (fun _ => UInt32.ofNat_toNat) UInt32.toNat_lt

/-- A field of eight bytes reads its number. -/
@[simp] theorem reads_takeU64_iff
    {bytes : Bytes}
    {value : UInt64} :
    Reads takeU64 bytes value ↔ bytes = u64 value :=
  reads_number_iff (fun _ small => UInt64.toNat_ofNat_of_lt' small)
    (fun _ => UInt64.ofNat_toNat) UInt64.toNat_lt

/-- Different numbers have different bytes. -/
theorem u32_injective : Function.Injective u32 := by
  intro one other same
  exact (reads_takeU32_iff.mpr rfl).unique (reads_takeU32_iff.mpr same)

/-- A truth value is read from any byte; all but zero are true. -/
@[simp] theorem reads_takeBool_iff
    {bytes : Bytes}
    {value : Bool} :
    Reads takeBool bytes value ↔ ∃ byte, bytes = [byte] ∧ value = (byte != 0) := by
  rw [takeBool, reads_map_iff]
  simp only [reads_take_iff]
  constructor
  · rintro ⟨found, ⟨rfl, sized⟩, rfl⟩
    obtain ⟨byte, rfl⟩ := List.length_eq_one_iff.mp sized
    exact ⟨byte, rfl, by simp [bne]⟩
  · rintro ⟨byte, rfl, rfl⟩
    exact ⟨[byte], ⟨rfl, rfl⟩, by simp [bne]⟩

@[simp] theorem length_u16 (value : UInt16) : (u16 value).length = 2 :=
  Bytes.length_ofNat _ _

@[simp] theorem length_u32 (value : UInt32) : (u32 value).length = 4 :=
  Bytes.length_ofNat _ _

@[simp] theorem length_u64 (value : UInt64) : (u64 value).length = 8 :=
  Bytes.length_ofNat _ _

/-! ## Fields behind their number -/

instance : Local takeCounted :=
  inferInstanceAs (Local (takeU32 >>= fun size => take size.toNat))

/-- A number of items that fits into its field is the one that the field names. -/
theorem toNat_ofNat_length
    {items : List α}
    (fits : items.length < UInt32.size) :
    (UInt32.ofNat items.length).toNat = items.length :=
  UInt32.toNat_ofNat_of_lt' fits

/-- A field with its length in front reads both. -/
@[simp] theorem reads_takeCounted_iff
    {bytes value : Bytes} :
    Reads takeCounted bytes value ↔ bytes = counted value ∧ value.length < UInt32.size := by
  rw [takeCounted, reads_bind_iff]
  simp only [reads_takeU32_iff, reads_take_iff]
  constructor
  · rintro ⟨size, _, _, rfl, rfl, rfl, sized⟩
    rw [counted, count, sized, UInt32.ofNat_toNat]
    exact ⟨rfl, size.toNat_lt⟩
  · rintro ⟨rfl, fits⟩
    exact ⟨_, _, _, rfl, rfl, rfl, (toNat_ofNat_length fits).symm⟩

instance Local.takeMany
    (field : Reading α)
    [Local field] :
    (size : Nat) → Local (takeMany field size)
  | 0 => inferInstanceAs (Local (pure []))
  | size + 1 =>
      have := Local.takeMany field size
      inferInstanceAs (Local (field >>= fun item => Packed.takeMany field size >>= fun rest =>
        pure (item :: rest)))

instance
    (field : Reading α)
    [Local field] :
    Local (takeList field) :=
  inferInstanceAs (Local (takeU32 >>= fun size => takeMany field size.toNat))

section Items

variable
  {field : Reading α}
  [Local field]
  {write : α → Bytes}
  {allowed : α → Prop}
  {bytes : Bytes}
  {items : List α}

/-- Items are read one after the other from their written forms. -/
theorem reads_takeMany_iff
    (reads_iff : ∀ bytes item, Reads field bytes item ↔ bytes = write item ∧ allowed item)
    {size : Nat} :
    Reads (takeMany field size) bytes items ↔
      bytes = items.flatMap write ∧ items.length = size ∧ ∀ item ∈ items, allowed item := by
  induction size generalizing bytes items with
  | zero =>
      rw [takeMany, reads_pure_iff]
      constructor
      · rintro ⟨rfl, rfl⟩
        simp
      · rintro ⟨rfl, empty, _⟩
        rw [List.eq_nil_of_length_eq_zero empty]
        exact ⟨rfl, rfl⟩
  | succ size inductionHypothesis =>
      simp only [takeMany, reads_bind_iff, reads_pure_iff, inductionHypothesis, reads_iff]
      constructor
      · rintro ⟨item, _, _, rfl, ⟨rfl, allowedItem⟩, rest, _, _, rfl, ⟨rfl, rfl, allowedRest⟩,
          rfl, rfl⟩
        simpa using ⟨allowedItem, allowedRest⟩
      · rintro ⟨rfl, sized, allowedAll⟩
        cases items with
        | nil => cases sized
        | cons item rest =>
            obtain ⟨allowedItem, allowedRest⟩ := List.forall_mem_cons.mp allowedAll
            exact ⟨item, _, _, rfl, ⟨rfl, allowedItem⟩, rest, _, _, (List.append_nil _).symm,
              ⟨rfl, Nat.succ.inj sized, allowedRest⟩, rfl, rfl⟩

/-- A list is read from its number and the written forms of its items. -/
theorem reads_takeList_iff
    (reads_iff : ∀ bytes item, Reads field bytes item ↔ bytes = write item ∧ allowed item) :
    Reads (takeList field) bytes items ↔
      bytes = count items ++ items.flatMap write ∧ items.length < UInt32.size ∧
        ∀ item ∈ items, allowed item := by
  rw [takeList, reads_bind_iff]
  simp only [reads_takeU32_iff, reads_takeMany_iff reads_iff]
  constructor
  · rintro ⟨size, _, _, rfl, rfl, rfl, sized, allowedAll⟩
    rw [count, sized, UInt32.ofNat_toNat]
    exact ⟨rfl, size.toNat_lt, allowedAll⟩
  · rintro ⟨rfl, fits, allowedAll⟩
    exact ⟨_, _, _, rfl, rfl, rfl, (toNat_ofNat_length fits).symm, allowedAll⟩

end Items

end Packed
end Valset
