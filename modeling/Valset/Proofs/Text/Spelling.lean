import Mathlib.Data.List.TakeWhile
import Valset.Proofs.Except
import Valset.Proofs.Text.Hex
import Valset.Proofs.Text.Runs
import Valset.Text.Blank

/-!
# What texts spell

A beginning is dropped from the texts that have it. Trimming takes away the blanks around a text and
nothing of a text that has none at its ends. Hexadecimal texts are read as bytes in either case: two
digits for each byte, behind any number of markers.
-/

namespace Valset

/-! ## Beginnings and ends of texts -/

namespace Text

theorem dropStart?_eq_some_iff
    {start chars rest : List Char} :
    dropStart? start chars = some rest ↔ chars = start ++ rest := by
  induction start generalizing chars with
  | nil => simp [dropStart?]
  | cons s start inductionHypothesis =>
      cases chars with
      | nil => simp [dropStart?]
      | cons c chars =>
          rw [dropStart?, List.cons_append, List.cons.injEq]
          split
          · next same => rw [inductionHypothesis, and_iff_right same.symm]
          · next different => exact iff_of_false nofun fun both => different both.1.symm

theorem startsWith_iff {start chars : List Char} :
    startsWith start chars ↔ ∃ rest, chars = start ++ rest := by
  simp only [startsWith, Option.isSome_iff_exists, dropStart?_eq_some_iff]

/-- The visible characters of ASCII are no blanks. -/
theorem isBlank_eq_false
    {c : Char}
    (visible : 0x20 < c.toNat)
    (ascii : c.toNat < 0x7f) :
    isBlank c = false := by
  simp [isBlank]
  omega

theorem dropBlanks_append
    {blanks chars : List Char}
    (blank : ∀ c ∈ blanks, isBlank c)
    (first : ∀ c ∈ chars.head?, isBlank c = false) :
    dropBlanks (blanks ++ chars) = chars :=
  dropWhile_run blank first

/-- Blanks around a text are trimmed, up to characters that are no blanks. -/
theorem trimChars_surrounded
    {before chars after : List Char}
    (blankBefore : ∀ c ∈ before, isBlank c)
    (blankAfter : ∀ c ∈ after, isBlank c)
    (first : ∀ c ∈ chars.head?, isBlank c = false)
    (last : ∀ c ∈ chars.getLast?, isBlank c = false) :
    trimChars (before ++ chars ++ after) = chars := by
  cases chars with
  | nil =>
      have allBlank : ∀ c ∈ before ++ [] ++ after, isBlank c := by
        simpa [or_imp, forall_and] using And.intro blankBefore blankAfter
      have nothing : dropBlanks (before ++ [] ++ after ++ []) = [] :=
        dropBlanks_append allBlank nofun
      rw [List.append_nil (before ++ [] ++ after)] at nothing
      rw [trimChars, nothing]
      rfl
  | cons c rest =>
      have front : dropBlanks (before ++ (c :: rest ++ after)) = c :: rest ++ after :=
        dropBlanks_append blankBefore first
      have back : dropBlanks (after.reverse ++ (c :: rest).reverse) = (c :: rest).reverse :=
        dropBlanks_append (fun c present => blankAfter c (List.mem_reverse.mp present))
          (by rwa [List.head?_reverse])
      rw [trimChars, List.append_assoc, front, List.reverse_append, back, List.reverse_reverse]

@[simp] theorem toList_trim (text : String) : (trim text).toList = trimChars text.toList :=
  String.toList_ofList

/-- Only blanks are trimmed. -/
theorem mem_trimChars
    {chars : List Char}
    {c : Char}
    (present : c ∈ chars)
    (visible : isBlank c = false) :
    c ∈ trimChars chars := by
  have kept {chars : List Char} (present : c ∈ chars) : c ∈ dropBlanks chars := by
    rw [← List.takeWhile_append_dropWhile (p := isBlank) (l := chars), List.mem_append] at present
    refine present.resolve_left fun trimmed => ?_
    simp [List.mem_takeWhile_imp trimmed] at visible
  exact List.mem_reverse.mpr (kept (List.mem_reverse.mpr (kept present)))

/-- Nothing is trimmed from a text without blanks. -/
theorem trimChars_eq_self
    {chars : List Char}
    (plain : ∀ c ∈ chars, isBlank c = false) :
    trimChars chars = chars := by
  have trimmed : trimChars ([] ++ chars ++ []) = chars :=
    trimChars_surrounded nofun nofun (fun c first => plain c (List.mem_of_head? first))
      fun c last => plain c (List.mem_of_getLast? last)
  rwa [List.nil_append, List.append_nil] at trimmed

theorem trim_eq_self
    {text : String}
    (plain : ∀ c ∈ text.toList, isBlank c = false) :
    trim text = text := by
  rw [trim, trimChars_eq_self plain, String.ofList_toList]

end Text

/-! ## Hexadecimal texts in either case -/

/-- Only letters of the Latin alphabet have another form in lower case. -/
theorem toNat_lt_of_toLower
    {c : Char}
    (ascii : c.toLower.toNat < 128) :
    c.toNat < 128 := by
  delta Char.toLower at ascii
  split at ascii
  · next upper => exact Nat.lt_of_le_of_lt upper.2 (by decide)
  · exact ascii

theorem utf8EncodeChar_of_ascii
    {c : Char}
    (ascii : c.toNat < 128) :
    String.utf8EncodeChar c = [UInt8.ofNat c.toNat] :=
  if_pos (Nat.le_of_lt_succ ascii)

theorem toNat_ofNat_toNat (byte : UInt8) : (Char.ofNat byte.toNat).toNat = byte.toNat := by
  rw [Char.ofNat, dif_pos (.inl (Nat.lt_trans byte.toNat_lt (by decide)))]
  rfl

/-- A character with a byte below 128 is that byte. -/
theorem toNat_lt_of_mem_utf8EncodeChar
    {c : Char}
    {byte : UInt8}
    (present : byte ∈ String.utf8EncodeChar c)
    (low : byte < 0x80) :
    c.toNat < 128 := by
  have single := congrArg List.length (utf8EncodeChar_eq_of_mem present low)
  rw [String.length_utf8EncodeChar] at single
  exact Nat.lt_succ_of_le (Char.utf8Size_eq_one_iff.mp single)

namespace Hex

/-! ## Digits -/

theorem toNat_digit_lt
    {value : Nat}
    (small : value < 16) :
    (digit value).toNat < 128 := by
  have each : ∀ value : Fin 16, (digit value).toNat < 128 := by decide
  exact each ⟨value, small⟩

theorem toNat_lt_of_digitValue?
    {c : Char}
    {value : Nat}
    (found : digitValue? c = some value) :
    c.toNat < 128 := by
  have upTo {last : Char} (below : c ≤ last) (ascii : last.toNat < 128) : c.toNat < 128 :=
    Nat.lt_of_le_of_lt below ascii
  rw [digitValue?] at found
  split at found
  · next decimal => exact upTo decimal.2 (by decide)
  · split at found
    · next lower => exact upTo lower.2 (by decide)
    · split at found
      · next upper => exact upTo upper.2 (by decide)
      · cases found

/-- A character has the value of the digit that it is in lower case. -/
theorem digitValue?_eq_some_iff
    {c : Char}
    {value : Nat} :
    digitValue? c = some value ↔ value < 16 ∧ c.toLower = digit value := by
  have small : ∀ code : Fin 128, ∀ value ∈ digitValue? (Char.ofNat code), value < 16 := by
    decide
  have same : ∀ code : Fin 128, ∀ value : Fin 16,
      digitValue? (Char.ofNat code) = some value.val ↔
        (Char.ofNat code).toLower = digit value := by
    decide
  constructor
  · intro found
    have ascii := toNat_lt_of_digitValue? found
    rw [← Char.ofNat_toNat c] at found ⊢
    have bounded := small ⟨c.toNat, ascii⟩ value found
    exact ⟨bounded, (same ⟨c.toNat, ascii⟩ ⟨value, bounded⟩).mp found⟩
  · rintro ⟨bounded, lowered⟩
    have ascii := toNat_lt_of_toLower (lowered ▸ toNat_digit_lt bounded)
    rw [← Char.ofNat_toNat c] at lowered ⊢
    exact (same ⟨c.toNat, ascii⟩ ⟨value, bounded⟩).mpr lowered

theorem encodeChars_cons (byte : UInt8) (bytes : Bytes) :
    encodeChars (byte :: bytes) =
      digit (byte.toNat / 16) :: digit (byte.toNat % 16) :: encodeChars bytes :=
  rfl

/-- Two characters and more spell bytes if the first two spell the first byte. -/
theorem cons_cons_eq_encodeChars_iff
    {high low : Char}
    {others : List Char}
    {bytes : Bytes} :
    high.toLower :: low.toLower :: others = encodeChars bytes ↔
      ∃ byte rest, bytes = byte :: rest ∧ digitValue? high = some (byte.toNat / 16) ∧
        digitValue? low = some (byte.toNat % 16) ∧ others = encodeChars rest := by
  constructor
  · intro spelled
    cases bytes with
    | nil => cases spelled
    | cons byte rest =>
        have bound := byte.toNat_lt
        rw [encodeChars_cons, List.cons.injEq, List.cons.injEq] at spelled
        obtain ⟨first, second, others⟩ := spelled
        exact ⟨byte, rest, rfl, digitValue?_eq_some_iff.mpr ⟨by omega, first⟩,
          digitValue?_eq_some_iff.mpr ⟨by omega, second⟩, others⟩
  · rintro ⟨byte, rest, rfl, highRead, lowRead, rfl⟩
    rw [encodeChars_cons, (digitValue?_eq_some_iff.mp highRead).2,
      (digitValue?_eq_some_iff.mp lowRead).2]

/-- Bytes are read from the characters that are their digits in lower case. -/
theorem decodeBytes_eq_ok_iff
    {position : Nat}
    {content bytes : Bytes} :
    decodeBytes position content = .ok bytes ↔
      content.map (fun byte => (Char.ofNat byte.toNat).toLower) = encodeChars bytes := by
  fun_induction decodeBytes position content generalizing bytes with
  | case1 => cases bytes <;> simp [encodeChars, byteDigits]
  | case2 => cases bytes <;> simp [encodeChars, byteDigits]
  | case3 position high low rest h l lowRead highRead inductionHypothesis =>
      rw [map_eq_ok_iff, List.map_cons, List.map_cons, cons_cons_eq_encodeChars_iff]
      have smallHigh := (digitValue?_eq_some_iff.mp highRead).1
      have smallLow := (digitValue?_eq_some_iff.mp lowRead).1
      have whole : (UInt8.ofNat (16 * h + l)).toNat = 16 * h + l :=
        UInt8.toNat_ofNat_of_lt' (show 16 * h + l < 256 by omega)
      constructor
      · rintro ⟨restBytes, restRead, rfl⟩
        have quotient : (16 * h + l) / 16 = h := by omega
        have remainder : (16 * h + l) % 16 = l := by omega
        refine ⟨_, restBytes, rfl, ?_, ?_, inductionHypothesis.mp restRead⟩
        · rw [whole, quotient]
          exact highRead
        · rw [whole, remainder]
          exact lowRead
      · rintro ⟨byte, restBytes, rfl, highToo, lowToo, others⟩
        refine ⟨restBytes, inductionHypothesis.mpr others, congrArg (· :: restBytes) ?_⟩
        have sameHigh := Option.some.inj (highRead.symm.trans highToo)
        have sameLow := Option.some.inj (lowRead.symm.trans lowToo)
        rw [← UInt8.toNat_inj, whole]
        omega
  | case4 position high low rest unread =>
      rw [List.map_cons, List.map_cons, cons_cons_eq_encodeChars_iff]
      refine iff_of_false (fun failed => by cases failed) ?_
      rintro ⟨byte, restBytes, -, highRead, -⟩
      cases unread.symm.trans highRead
  | case5 position high low rest value unread =>
      rw [List.map_cons, List.map_cons, cons_cons_eq_encodeChars_iff]
      refine iff_of_false (fun failed => by cases failed) ?_
      rintro ⟨byte, restBytes, -, -, lowRead, -⟩
      cases unread.symm.trans lowRead

/-! ## Texts -/

theorem toNat_lt_of_mem_encodeChars
    {bytes : Bytes}
    {c : Char}
    (present : c ∈ encodeChars bytes) :
    c.toNat < 128 :=
  @forall_mem_encodeChars (·.toNat < 128) (by decide) bytes c present

/-- The bytes of characters are digits if the characters are. -/
theorem map_flatMap_utf8EncodeChar_eq_iff
    {chars : List Char}
    {bytes : Bytes} :
    (chars.flatMap String.utf8EncodeChar).map (fun byte => (Char.ofNat byte.toNat).toLower) =
        encodeChars bytes ↔
      chars.map Char.toLower = encodeChars bytes := by
  have ofAscii (ascii : ∀ c ∈ chars, c.toNat < 128) :
      (chars.flatMap String.utf8EncodeChar).map (fun byte => (Char.ofNat byte.toNat).toLower) =
        chars.map Char.toLower := by
    induction chars with
    | nil => rfl
    | cons c chars inductionHypothesis =>
        obtain ⟨asciiFirst, asciiRest⟩ := List.forall_mem_cons.mp ascii
        have code : (UInt8.ofNat c.toNat).toNat = c.toNat :=
          UInt8.toNat_ofNat_of_lt' (Nat.lt_trans asciiFirst (by decide))
        rw [List.flatMap_cons, utf8EncodeChar_of_ascii asciiFirst, List.map_append,
          List.map_singleton, code, Char.ofNat_toNat, inductionHypothesis asciiRest,
          List.map_cons, List.singleton_append]
  constructor
  · intro spelled
    refine (ofAscii fun c present => ?_).symm.trans spelled
    have some : 0 < (String.utf8EncodeChar c).length := by
      rw [String.length_utf8EncodeChar]
      exact c.utf8Size_pos
    obtain ⟨byte, inChar⟩ := List.exists_mem_of_length_pos some
    have inDigits := List.mem_map_of_mem (f := fun byte : UInt8 => (Char.ofNat byte.toNat).toLower)
      (List.mem_flatMap.mpr ⟨c, present, inChar⟩)
    rw [spelled] at inDigits
    have low := toNat_lt_of_toLower (toNat_lt_of_mem_encodeChars inDigits)
    rw [toNat_ofNat_toNat] at low
    exact toNat_lt_of_mem_utf8EncodeChar inChar (UInt8.lt_iff_toNat_lt.mpr low)
  · intro spelled
    refine (ofAscii fun c present => ?_).trans spelled
    exact toNat_lt_of_toLower
      (toNat_lt_of_mem_encodeChars (spelled ▸ List.mem_map_of_mem present))

/-- Bytes are read from the text that is their digits in lower case. -/
theorem decode_eq_ok_iff
    {chars : List Char}
    {bytes : Bytes} :
    decode (String.ofList chars) = .ok bytes ↔ chars.map Char.toLower = encodeChars bytes := by
  rw [decode, Bytes.ofText_ofList, ← map_flatMap_utf8EncodeChar_eq_iff]
  split
  · next odd =>
    refine iff_of_false (fun failed => by cases failed) fun spelled => ?_
    have even := congrArg List.length spelled
    rw [List.length_map, length_encodeChars] at even
    omega
  · exact decodeBytes_eq_ok_iff

/-- A number of markers in a row. -/
def markers (count : Nat) : List Char :=
  (List.replicate count ['0', 'x']).flatten

theorem markers_succ (count : Nat) : markers (count + 1) = '0' :: 'x' :: markers count := by
  rw [markers, List.replicate_succ]
  rfl

/-- Characters that spell bytes: digits in either case, behind at least one marker. -/
def Spells (chars : List Char) (bytes : Bytes) : Prop :=
  ∃ further digits, chars = markers (further + 1) ++ digits ∧
    digits.map Char.toLower = encodeChars bytes

/-- Characters that spell bytes are digits, or the second one of a marker. -/
theorem Spells.of_mem
    {chars : List Char}
    {bytes : Bytes}
    {c : Char}
    (spelled : Spells chars bytes)
    (present : c ∈ chars) :
    c = 'x' ∨ ∃ value, digitValue? c = some value := by
  obtain ⟨further, digits, rfl, lowered⟩ := spelled
  rcases List.mem_append.mp present with inMarkers | inDigits
  · obtain ⟨marker, isMarker, inMarker⟩ := List.mem_flatten.mp inMarkers
    have ofMarker : ∀ c ∈ ['0', 'x'], c = 'x' ∨ digitValue? c = some 0 :=
      List.forall_mem_cons.mpr ⟨.inr rfl, List.forall_mem_singleton.mpr (.inl rfl)⟩
    rw [List.eq_of_mem_replicate isMarker] at inMarker
    exact (ofMarker c inMarker).imp id fun isZero => ⟨0, isZero⟩
  · have inLower := List.mem_map_of_mem (f := Char.toLower) inDigits
    rw [lowered] at inLower
    obtain ⟨value, same⟩ := @forall_mem_encodeChars
      (fun c => ∃ value : Fin 16, c = digit value) (fun value => ⟨value, rfl⟩) bytes _ inLower
    exact .inr ⟨value, digitValue?_eq_some_iff.mpr ⟨value.isLt, same⟩⟩

/-- No blank spells bytes. -/
theorem Spells.isBlank
    {chars : List Char}
    {bytes : Bytes}
    (spelled : Spells chars bytes) :
    ∀ c ∈ chars, Text.isBlank c = false := by
  have each : ∀ code : Fin 128, (digitValue? (Char.ofNat code)).isSome →
      Text.isBlank (Char.ofNat code) = false := by
    decide
  intro c present
  rcases spelled.of_mem present with rfl | ⟨value, read⟩
  · rfl
  · have found := each ⟨c.toNat, toNat_lt_of_digitValue? read⟩
    rw [Char.ofNat_toNat] at found
    exact found (Option.isSome_of_eq_some read)

/-- Nothing but markers is dropped. -/
theorem exists_markers_append (chars : List Char) :
    ∃ count, chars = markers count ++ dropMarkers chars := by
  fun_induction dropMarkers chars with
  | case1 rest inductionHypothesis =>
      obtain ⟨count, split⟩ := inductionHypothesis
      exact ⟨count + 1, by rw [markers_succ, List.cons_append, List.cons_append, ← split]⟩
  | case2 rest => exact ⟨0, rfl⟩

/-- All markers are dropped in front of digits. -/
theorem dropMarkers_markers_append
    {digits : List Char}
    {bytes : Bytes}
    (spelled : digits.map Char.toLower = encodeChars bytes)
    (count : Nat) :
    dropMarkers (markers count ++ digits) = digits := by
  induction count with
  | zero =>
      change dropMarkers digits = digits
      unfold dropMarkers
      split
      · next rest =>
        have inDigits : 'x' ∈ encodeChars bytes := by simp [← spelled]
        exact absurd rfl (@forall_mem_encodeChars (· ≠ 'x') (by decide) bytes 'x' inDigits)
      · rfl
  | succ count inductionHypothesis =>
      rw [markers_succ, List.cons_append, List.cons_append, dropMarkers, inductionHypothesis]

/-- Behind a marker, bytes are read from the characters that spell them. -/
theorem decodeMarked_eq_ok_iff
    {text : String}
    {bytes : Bytes} :
    Text.startsWith ['0', 'x'] text.toList ∧ decodeMarked text = .ok bytes ↔
      Spells text.toList bytes := by
  rw [decodeMarked, decode_eq_ok_iff]
  constructor
  · rintro ⟨marked, spelled⟩
    obtain ⟨rest, shape⟩ := Text.startsWith_iff.mp marked
    obtain ⟨further, split⟩ := exists_markers_append rest
    have behind : dropMarkers text.toList = dropMarkers rest := by
      rw [shape]
      rfl
    refine ⟨further, dropMarkers rest, ?_, behind ▸ spelled⟩
    rw [shape, markers_succ]
    exact congrArg (fun chars => '0' :: 'x' :: chars) split
  · rintro ⟨further, digits, shape, spelled⟩
    rw [shape, dropMarkers_markers_append spelled]
    exact ⟨Text.startsWith_iff.mpr ⟨markers further ++ digits, by rw [markers_succ]; rfl⟩, spelled⟩

/-- Bytes are spelled by their text. -/
theorem spells_encode0x (bytes : Bytes) : Spells (encode0x bytes).toList bytes := by
  refine ⟨0, encodeChars bytes, toList_encode0x bytes, ?_⟩
  refine (List.map_congr_left fun c present => ?_).trans (List.map_id _)
  exact @forall_mem_encodeChars (fun c => c.toLower = c) (by decide) bytes c present

end Hex
end Valset
