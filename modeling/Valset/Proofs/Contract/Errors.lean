import Mathlib.Data.List.Nodup
import Valset.Contract.Revert
import Valset.Proofs.Abi.Word
import Valset.Proofs.Hash.Keccak256
import Valset.Proofs.Text.Hex
import Valset.Proofs.Text.Runs

/-!
# Errors of contracts told apart

No two of the errors that are recognised have the same selector. None has that of a reason text, and
none is made of zeros, so that no selector can be taken for the front of an offset.

The text of an error begins with its name, and each of its values ends in front of the comma or the
blank that follows. So the text tells which error it is and with which values.
-/

namespace Valset

/-! ## Selectors -/

namespace ContractErrorKind

/-- All errors that are recognised, each once. -/
def recognised : List ContractErrorKind :=
  erc20 ++ messageLibrary

/-- A contract or the library declares an error. -/
def Declared (kind : ContractErrorKind) : Prop :=
  kind ∈ native ∨ kind ∈ erc20 ∨ kind ∈ messageLibrary

/-- The errors of the native staking manager are among those of the other one. -/
theorem declared_iff {kind : ContractErrorKind} : kind.Declared ↔ kind ∈ recognised := by
  have included : kind ∈ native → kind ∈ erc20 := List.mem_append_left _
  rw [Declared, recognised, List.mem_append]
  exact ⟨fun declared => declared.elim (fun inNative => .inl (included inNative)) id, .inr⟩

/-- The text that is hashed for the selector. -/
def declaration (kind : ContractErrorKind) : String :=
  AbiType.signature kind.name kind.types

/-- The selectors of the errors differ, also from that of a reason and from zeros. -/
theorem nodup_hash_declaration :
    (Bytes.zeros 4 :: Revert.reasonSelector :: recognised.map fun kind =>
      (Keccak256.Rows.hash (Bytes.ofText kind.declaration)).bytes.take 4).Nodup := by
  -- In rows a hash is evaluated ten times as fast as on an array of lanes.
  decide +kernel

/-- A selector is the front of the hash of a declaration. -/
theorem selector_eq (kind : ContractErrorKind) :
    kind.selector = (Keccak256.Rows.hash (Bytes.ofText kind.declaration)).bytes.take 4 := by
  rw [← Keccak256.Rows.hash_eq]
  rfl

/-- The selectors of errors differ from each other, from that of a reason text and from zero. -/
theorem nodup_selectors :
    (Bytes.zeros 4 :: Revert.reasonSelector :: recognised.map selector).Nodup := by
  rw [List.map_congr_left fun kind _ => selector_eq kind]
  exact nodup_hash_declaration

@[simp] theorem length_selector (kind : ContractErrorKind) : kind.selector.length = 4 := by
  simp [selector, selectorOf, FixedBytes.length_bytes]

@[simp] theorem take_selector_append
    (kind : ContractErrorKind)
    (data : Bytes) :
    (kind.selector ++ data).take 4 = kind.selector :=
  List.take_left' kind.length_selector

@[simp] theorem drop_selector_append
    (kind : ContractErrorKind)
    (data : Bytes) :
    (kind.selector ++ data).drop 4 = data :=
  List.drop_left' kind.length_selector

section Recognised

variable
  {kind other : ContractErrorKind}
  (known : kind ∈ recognised)

include known

theorem selector_ne_zeros : kind.selector ≠ Bytes.zeros 4 := by
  intro same
  have absent := (List.nodup_cons.mp nodup_selectors).1
  exact absent (List.mem_cons_of_mem _ (same ▸ List.mem_map_of_mem known))

theorem selector_ne_reasonSelector : kind.selector ≠ Revert.reasonSelector := by
  intro same
  have absent := (List.nodup_cons.mp (List.nodup_cons.mp nodup_selectors).2).1
  exact absent (same ▸ List.mem_map_of_mem known)

/-- No two errors have the same selector. -/
theorem selector_injective
    (knownToo : other ∈ recognised)
    (same : kind.selector = other.selector) :
    kind = other :=
  List.inj_on_of_nodup_map (List.nodup_cons.mp (List.nodup_cons.mp nodup_selectors).2).2 known
    knownToo same

end Recognised

end ContractErrorKind

/-! ## Texts told apart -/

/-- A text that does not go on with a digit. -/
def EndsDigits (rest : List Char) : Prop :=
  ∀ c ∈ rest.head?, c.isDigit = false

@[simp] theorem endsDigits_cons
    {c : Char}
    {rest : List Char} :
    EndsDigits (c :: rest) ↔ c.isDigit = false := by
  simp [EndsDigits]

/-- Two texts in front of anything but digits agree only if what they stand for does, and what
follows does as well. -/
def TellsApart (first second : List Char) (agree : Prop) : Prop :=
  ∀ rest restToo, EndsDigits rest → EndsDigits restToo → first ++ rest = second ++ restToo →
    agree ∧ rest = restToo

/-- What tells texts apart is as good for all that follows from their agreement. -/
theorem TellsApart.imp
    {first second : List Char}
    {agree conclusion : Prop}
    (apart : TellsApart first second agree)
    (concludes : agree → conclusion) :
    TellsApart first second conclusion :=
  fun rest restToo ends endsToo same => (apart rest restToo ends endsToo same).imp_left concludes

/-- Texts of one length. -/
theorem tellsApart_of_length
    {first second : List Char}
    (sized : first.length = second.length) :
    TellsApart first second (first = second) :=
  fun _ _ _ _ same => List.append_inj same sized

/-- What stands in front of both texts does not matter. -/
theorem TellsApart.append_left
    {first second : List Char}
    {agree : Prop}
    (apart : TellsApart first second agree)
    (front : List Char) :
    TellsApart (front ++ first) (front ++ second) agree := by
  intro rest restToo ends endsToo same
  rw [List.append_assoc, List.append_assoc] at same
  exact apart rest restToo ends endsToo (List.append_cancel_left same)

/-- Whatever follows both texts, as long as it does not begin with a digit. -/
theorem TellsApart.append_right
    {first second : List Char}
    {agree : Prop}
    (apart : TellsApart first second agree)
    {mark : Char}
    (noDigit : mark.isDigit = false)
    (back : List Char) :
    TellsApart (first ++ mark :: back) (second ++ mark :: back) agree := by
  intro rest restToo _ _ same
  rw [List.append_assoc, List.append_assoc] at same
  have ends (tail : List Char) : EndsDigits (mark :: tail) := endsDigits_cons.mpr noDigit
  obtain ⟨agrees, tails⟩ := apart _ _ (ends _) (ends _) same
  exact ⟨agrees, List.append_cancel_left (List.cons.inj tails).2⟩

/-- Texts that are told apart agree on what they stand for if they are equal. -/
theorem TellsApart.of_eq
    {first second : List Char}
    {agree : Prop}
    (apart : TellsApart first second agree)
    (same : first = second) :
    agree :=
  (apart [] [] nofun nofun (by rw [same])).1

/-- Numbers are told apart by their digits. -/
theorem tellsApart_toDigits (first second : Nat) :
    TellsApart (Nat.toDigits 10 first) (Nat.toDigits 10 second) (first = second) := by
  intro rest restToo ends endsToo same
  have digits (value : Nat) : ∀ c ∈ Nat.toDigits 10 value, c.isDigit :=
    fun c => Nat.isDigit_of_mem_toDigits (by decide) (by decide)
  have fronts := congrArg (List.takeWhile Char.isDigit) same
  rw [Text.takeWhile_run (digits first) ends, Text.takeWhile_run (digits second) endsToo] at fronts
  refine ⟨?_, ?_⟩
  · have values := congrArg (Nat.ofDigitChars 10 · 0) fronts
    simpa only [Nat.ofDigitChars_ten_toDigits] using values
  · rw [fronts] at same
    exact List.append_cancel_left same

section Lists

variable
  {α : Type}
  {write : α → List Char}

/-- Lists whose members are told apart are told apart when commas and blanks stand between the
members. -/
theorem tellsApart_intercalate
    {first second : List α}
    (each : List.Forall₂ (fun one other => TellsApart (write one) (write other) (one = other))
      first second) :
    TellsApart ([',', ' '].intercalate (first.map write))
      ([',', ' '].intercalate (second.map write)) (first = second) := by
  induction each with
  | nil => exact tellsApart_of_length rfl |>.imp fun _ => rfl
  | @cons one other ones others apart rest inductionHypothesis =>
      cases rest with
      | nil => simpa using apart
      | @cons next nextToo further furtherToo _ _ =>
          simp only [List.map_cons, List.intercalate_cons_cons] at inductionHypothesis ⊢
          intro tail tailToo ends endsToo same
          simp only [List.append_assoc] at same
          obtain ⟨rfl, same⟩ := apart _ _ (by simp) (by simp) same
          obtain ⟨tails, rests⟩ :=
            inductionHypothesis tail tailToo ends endsToo (by simpa using same)
          exact ⟨congrArg (one :: ·) tails, rests⟩

end Lists

namespace Revert

open AbiType

/-- The characters of a field and its value. -/
def fieldChars (entry : (String × AbiType) × AbiValue) : List Char :=
  entry.1.1.toList ++ ':' :: ' ' :: (showValue entry.2).toList

/-- Addresses are told apart by their texts. -/
theorem tellsApart_showValue_address (first second : Address) :
    TellsApart (showValue (.address first)).toList (showValue (.address second)).toList
      (first = second) := by
  have sized (value : Address) : (showValue (.address value)).toList.length = 42 := by
    rw [showValue, FixedBytes.toHex, Hex.toList_encode0x, List.length_cons, List.length_cons,
      Hex.length_encodeChars, value.length_bytes]
  refine (tellsApart_of_length ((sized first).trans (sized second).symm)).imp fun same => ?_
  exact FixedBytes.toHex_inj.mp (String.toList_injective same)

/-- Numbers are told apart by their texts in an error. -/
theorem tellsApart_showValue_uint (first second : U256) :
    TellsApart (showValue (.uint first)).toList (showValue (.uint second)).toList
      (first = second) := by
  have digits (value : U256) : (showValue (.uint value)).toList = Nat.toDigits 10 value.toNat :=
    Nat.toList_repr
  rw [digits, digits]
  exact (tellsApart_toDigits _ _).imp BitVec.eq_of_toNat_eq

/-- Bytes of one length are told apart by their texts. -/
theorem tellsApart_showValue_fixedBytes
    {first second : Bytes}
    (sized : first.length = second.length) :
    TellsApart (showValue (.fixedBytes first)).toList (showValue (.fixedBytes second)).toList
      (first = second) := by
  have each : List.Forall₂ (fun one other : UInt8 => TellsApart (Nat.toDigits 10 one.toNat)
      (Nat.toDigits 10 other.toNat) (one = other)) first second :=
    List.forall₂_iff_zip.mpr ⟨sized, fun _ => (tellsApart_toDigits _ _).imp UInt8.toNat_inj.mp⟩
  have chars (value : Bytes) : (showValue (.fixedBytes value)).toList =
      '[' :: [',', ' '].intercalate (value.map (Nat.toDigits 10 ·.toNat)) ++ [']'] := by
    simp [showValue, Function.comp_def, Nat.toList_repr]
  rw [chars, chars]
  exact ((tellsApart_intercalate each).append_right (by decide) []).append_left ['[']

/-- The texts of two values of a type tell whether they are the same. -/
theorem tellsApart_showValue
    {type : AbiType}
    {first second : AbiValue}
    (single : type.isWord = true)
    (admits : type.Admits first)
    (admitsToo : type.Admits second) :
    TellsApart (showValue first).toList (showValue second).toList (first = second) := by
  cases admits with
  | address =>
      cases admitsToo
      exact (tellsApart_showValue_address _ _).imp (congrArg _)
  | bool value =>
      cases admitsToo with
      | bool valueToo =>
          intro rest restToo _ _ same
          cases value <;> cases valueToo <;> simp_all [showValue]
  | uint =>
      cases admitsToo
      exact (tellsApart_showValue_uint _ _).imp (congrArg _)
  | @fixedBytes value =>
      generalize sized : value.length = size at admitsToo
      cases admitsToo
      exact (tellsApart_showValue_fixedBytes sized).imp (congrArg _)
  | bytes | array | tuple => cases single

section Fields

variable
  {fields : List (String × AbiType)}
  {first second : List AbiValue}

/-- The fields of an error are told apart one by one. -/
theorem forall₂_tellsApart_fieldChars
    (single : ∀ type ∈ fields.map (·.2), type.isWord = true)
    (admits : AdmitsAll (fields.map (·.2)) first)
    (admitsToo : AdmitsAll (fields.map (·.2)) second) :
    List.Forall₂ (fun one other => TellsApart (fieldChars one) (fieldChars other) (one = other))
      (fields.zip first) (fields.zip second) := by
  induction fields generalizing first second with
  | nil => exact .nil
  | cons field fields inductionHypothesis =>
      cases admits with
      | cons one ones =>
          cases admitsToo with
          | cons other others =>
              obtain ⟨singleHere, singleBehind⟩ := List.forall_mem_cons.mp single
              refine .cons ?_ (inductionHypothesis singleBehind ones others)
              have apart := tellsApart_showValue singleHere one other
              have marked := (apart.append_left [':', ' ']).append_left field.1.toList
              exact marked.imp (congrArg (Prod.mk field))

/-- The texts of the fields of an error tell their values. -/
theorem tellsApart_fields
    (single : ∀ type ∈ fields.map (·.2), type.isWord = true)
    (admits : AdmitsAll (fields.map (·.2)) first)
    (admitsToo : AdmitsAll (fields.map (·.2)) second) :
    TellsApart ([',', ' '].intercalate ((fields.zip first).map fieldChars))
      ([',', ' '].intercalate ((fields.zip second).map fieldChars)) (first = second) := by
  refine (tellsApart_intercalate
    (forall₂_tellsApart_fieldChars single admits admitsToo)).imp fun same => ?_
  have sized {values : List AbiValue} (admitted : AdmitsAll (fields.map (·.2)) values) :
      values.length ≤ fields.length := by
    exact Nat.le_of_eq (admitted.length_eq.trans (List.length_map _))
  have values := congrArg (List.map Prod.snd) same
  rwa [List.map_snd_zip (sized admits), List.map_snd_zip (sized admitsToo)] at values

end Fields

section Errors

variable
  {kind other : ContractErrorKind}
  {values others : List AbiValue}

/-- An error is shown as its name, and its fields in braces if it has any. -/
theorem toList_showError
    (kind : ContractErrorKind)
    (values : List AbiValue) :
    (showError kind values).toList =
      if kind.fields.isEmpty then kind.name.toList
      else kind.name.toList ++ [' ', '\x7b', ' '] ++
        [',', ' '].intercalate ((kind.fields.zip values).map fieldChars) ++ [' ', '\x7d'] := by
  have fields : (kind.fields.zipWith (fun field value => s!"{field.1}: {showValue value}")
      values).map String.toList = (kind.fields.zip values).map fieldChars := by
    rw [List.zip, List.map_zipWith, List.map_zipWith]
    congr 1
    funext field value
    rw [String.toList_append, String.toList_append, List.append_assoc]
    rfl
  rw [showError]
  split
  · rfl
  · simp only [String.toList_append, String.toList_intercalate, fields]
    rfl

/-- The text of an error of a kind tells its values. -/
theorem showError_inj
    (single : ∀ type ∈ kind.types, type.isWord = true)
    (admits : AdmitsAll kind.types values)
    (admitsToo : AdmitsAll kind.types others)
    (same : showError kind values = showError kind others) :
    values = others := by
  have chars := congrArg String.toList same
  rw [toList_showError, toList_showError] at chars
  split at chars
  · rename_i empty
    rw [ContractErrorKind.types, List.isEmpty_iff.mp empty] at admits admitsToo
    cases admits
    cases admitsToo
    rfl
  · rw [List.append_assoc, List.append_assoc (kind.name.toList ++ _)] at chars
    exact ((tellsApart_fields single admits admitsToo).append_right (by decide) ['\x7d']).of_eq
      (List.append_cancel_left chars)

/-- The text of an error has its name in front of what is shown of it. -/
theorem toList_text_error
    (kind : ContractErrorKind)
    (values : List AbiValue) :
    (text (.error kind values)).toList =
      kind.name.toList ++ '(' :: ((showError kind values).toList ++ [')']) := by
  simp only [text, String.toList_append, List.append_assoc]
  rfl

/-- The text of an error tells its name, as no name has a parenthesis. -/
theorem name_eq_of_text_eq
    (plain : '(' ∉ kind.name.toList)
    (plainToo : '(' ∉ other.name.toList)
    (same : text (.error kind values) = text (.error other others)) :
    kind.name = other.name := by
  have front {kind : ContractErrorKind} (values : List AbiValue) (plain : '(' ∉ kind.name.toList) :
      (text (.error kind values)).toList.takeWhile (· != '(') = kind.name.toList := by
    rw [toList_text_error]
    refine Text.takeWhile_run (fun c present => ?_) (by simp)
    rw [bne_iff_ne]
    rintro rfl
    exact plain present
  apply String.toList_injective
  rw [← front values plain, ← front others plainToo, same]

/-- Equal texts of an error show the same. -/
theorem showError_eq_of_text_eq
    (same : text (.error kind values) = text (.error kind others)) :
    showError kind values = showError kind others := by
  have chars := congrArg String.toList same
  rw [toList_text_error, toList_text_error] at chars
  have behind := (List.cons.inj (List.append_cancel_left chars)).2
  exact String.toList_injective (List.append_cancel_right behind)

end Errors

end Revert

/-! ## Errors that are recognised -/

namespace ContractErrorKind

theorem nodup_names : (recognised.map (·.name)).Nodup := by
  decide +kernel

theorem isWord_of_mem_recognised :
    ∀ kind ∈ recognised, ∀ type ∈ kind.types, type.isWord = true := by
  decide

theorem plain_of_mem_recognised : ∀ kind ∈ recognised, '(' ∉ kind.name.toList := by
  decide +kernel

end ContractErrorKind

namespace Revert

/-- The text of an error that is recognised tells which one it is and with which values. -/
theorem text_error_inj
    {kind other : ContractErrorKind}
    {values others : List AbiValue}
    (known : kind ∈ ContractErrorKind.recognised)
    (knownToo : other ∈ ContractErrorKind.recognised)
    (admits : AbiType.AdmitsAll kind.types values)
    (admitsToo : AbiType.AdmitsAll other.types others)
    (same : text (.error kind values) = text (.error other others)) :
    kind = other ∧ values = others := by
  have names := name_eq_of_text_eq (ContractErrorKind.plain_of_mem_recognised kind known)
    (ContractErrorKind.plain_of_mem_recognised other knownToo) same
  obtain rfl := List.inj_on_of_nodup_map ContractErrorKind.nodup_names known knownToo names
  exact ⟨rfl, showError_inj (ContractErrorKind.isWord_of_mem_recognised kind known) admits
    admitsToo (showError_eq_of_text_eq same)⟩

end Revert

end Valset
