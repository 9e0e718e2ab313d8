import Valset.Proofs.Bytes
import Valset.Proofs.Json.RoundTrip
import Valset.Proofs.Text.Hex
import Valset.Proofs.Wallet.Encryption
import Valset.Wallet.Store

/-!
# Keys read back from keystores

A key is decrypted from the keystore that it was encrypted into, and the keystore is read back from
its JSON text, be it the one that is written first or the one that also names the account.
-/

namespace Valset

/-- A key is known from its bytes. -/
theorem PrivateKey.ofBytes?_bytes (key : PrivateKey) : ofBytes? key.bytes = some key := by
  have fits : key.value < 256 ^ 32 := Nat.lt_trans key.lt_order (by decide)
  have value_eq : Bytes.toNat key.bytes = key.value := by
    rw [bytes, Bytes.toNat_ofNat, Nat.mod_eq_of_lt fits]
  rw [ofBytes?, value_eq, ofNat?, dif_pos ⟨key.pos, key.lt_order⟩]

/-- The random bytes of a keystore have the lengths that the format asks for. -/
structure KeystoreSeeds.Sized (seeds : KeystoreSeeds) : Prop where
  start : seeds.start.length = Keystore.startSize
  id : seeds.id.length = 16

namespace Keystore

/-! ## Decrypting -/

/-- A text that was encrypted with the stretched password is in the keystore. -/
theorem open?_eq_some
    {keystore : Keystore}
    {password : String}
    {stretched text : Bytes}
    (derived : keystore.stretching.derive? (Bytes.ofText password) = some stretched)
    (long : stretched.length = keySize)
    (started : keystore.start.length = startSize)
    (encrypted : keystore.ciphertext = applyStream stretched keystore.start text)
    (coded : keystore.code = codeOf stretched keystore.ciphertext) :
    keystore.open? password = some text := by
  have sizedKey : (stretched.take 16).length = 16 := by
    rw [List.length_take, long]
    rfl
  have sizes : ¬ (stretched.length < keySize ∨ keystore.start.length < startSize) := by
    rw [long, started]
    omega
  rw [open?, derived, Option.bind_eq_bind, Option.bind_some, if_neg sizes,
    if_neg (not_not.mpr coded.symm), encrypted, applyStream, applyStream,
    Aes.counterMode_counterMode sizedKey]

/-- A key is decrypted with the password under which it was encrypted. -/
theorem decrypt_encrypt
    (key : PrivateKey)
    (password : String)
    {seeds : KeystoreSeeds}
    (sized : seeds.Sized) :
    (encrypt key password seeds).decrypt password = .ok key := by
  have opened : (encrypt key password seeds).open? password = some key.bytes := by
    refine open?_eq_some (by rw [encrypt, Stretching.derive?, if_pos (by decide)]) ?_ ?_ ?_ ?_
    · exact Pbkdf2.length_derive _ _ _ _
    · exact sized.start
    · rw [encrypt]
    · rw [encrypt]
  have whole : key.bytes.length = keySize := Bytes.length_ofNat 32 key.value
  simp [decrypt, opened, whole, PrivateKey.ofBytes?_bytes]

/-! ## Identifiers -/

theorem digit_ne {value : Nat} (small : value < 16) :
    Hex.digit value ≠ '-' ∧ Hex.digit value ≠ 'u' := by
  have each : ∀ value : Fin 16, Hex.digit value ≠ '-' ∧ Hex.digit value ≠ 'u' := by decide
  exact each ⟨value, small⟩

theorem not_mem_encodeChars (bytes : Bytes) :
    '-' ∉ Hex.encodeChars bytes ∧ 'u' ∉ Hex.encodeChars bytes := by
  have each : ∀ c ∈ Hex.encodeChars bytes, c ≠ '-' ∧ c ≠ 'u' := by
    intro c present
    obtain ⟨byte, _, inByte⟩ := List.mem_flatMap.mp present
    have small := byte.toNat_lt
    simp only [Hex.byteDigits, List.mem_cons, List.not_mem_nil, or_false] at inByte
    rcases inByte with rfl | rfl
    · exact digit_ne (by omega)
    · exact digit_ne (by omega)
  exact ⟨fun present => (each _ present).1 rfl, fun present => (each _ present).2 rfl⟩

/-- Characters that are as many as the groups hold are cut into groups of these lengths. -/
theorem cutGroups_sized
    {sizes : List Nat}
    {chars : List Char}
    (sized : chars.length = sizes.sum) :
    (cutGroups sizes chars).flatten = chars ∧ (cutGroups sizes chars).map List.length = sizes := by
  induction sizes generalizing chars with
  | nil =>
      obtain rfl : chars = [] := List.eq_nil_of_length_eq_zero sized
      exact ⟨rfl, rfl⟩
  | cons size sizes inductionHypothesis =>
      rw [List.sum_cons] at sized
      have dropped : (chars.drop size).length = sizes.sum := by
        rw [List.length_drop]
        omega
      obtain ⟨whole, lengths⟩ := inductionHypothesis dropped
      refine ⟨?_, ?_⟩
      · rw [cutGroups, List.flatten_cons, whole, List.take_append_drop]
      · rw [cutGroups, List.map_cons, lengths, List.length_take_of_le (by omega)]

/-- Groups of digits are put together again. -/
theorem readGroups?_intercalate
    {chars : List Char}
    (sized : chars.length = 32)
    (noDash : '-' ∉ chars) :
    readGroups? (['-'].intercalate (cutGroups idGroups chars)) = some chars := by
  have sizedGroups : chars.length = idGroups.sum := sized
  obtain ⟨whole, lengths⟩ := cutGroups_sized sizedGroups
  have noDashInside : ∀ group ∈ cutGroups idGroups chars, '-' ∉ group := by
    intro group present inGroup
    apply noDash
    rw [← whole]
    exact List.mem_flatten_of_mem present inGroup
  rw [readGroups?, List.splitOn_intercalate '-' noDashInside (List.cons_ne_nil _ _), whole]
  exact if_pos lengths

/-- An identifier is read back from its text. -/
theorem readId?_idText {id : Bytes} (sized : id.length = 16) : readId? (idText id) = some id := by
  have digits : (Hex.encodeChars id).length = 32 := by
    rw [Hex.length_encodeChars, sized]
  obtain ⟨noDash, noMarker⟩ := not_mem_encodeChars id
  have read : Hex.decode (String.ofList (Hex.encodeChars id)) = .ok id := Hex.decode_encode_eq_ok id
  have grouped := readGroups?_intercalate digits noDash
  rw [readId?, idText, String.toList_ofList]
  generalize Hex.encodeChars id = chars at digits noMarker read grouped ⊢
  have long : (['-'].intercalate (cutGroups idGroups chars)).length = 36 := by
    simp [cutGroups, idGroups, List.intercalate_cons_cons, digits]
  have unmarked : idMarker.isPrefixOf (['-'].intercalate (cutGroups idGroups chars)) = false := by
    cases chars with
    | nil => simp at digits
    | cons c chars =>
        have notFirst : 'u' ≠ c := by
          rintro rfl
          exact noMarker List.mem_cons_self
        have marker : idMarker = 'u' :: "rn:uuid:".toList := rfl
        simp only [cutGroups, idGroups, List.take_succ_cons, List.intercalate_cons_cons,
          List.cons_append]
        rw [marker, List.isPrefixOf_cons_cons, beq_false_of_ne notFirst, Bool.false_and]
  simp only [long, unmarked, grouped]
  simp [read, Except.toOption]

/-! ## JSON -/

/-- The part of a keystore that holds the encrypted key, as JSON. -/
def cryptoJson (keystore : Keystore) : Json :=
  .object [
    ("cipher", .string cipher),
    ("cipherparams", .object [("iv", .string (Hex.encode keystore.start))]),
    ("ciphertext", .string (Hex.encode keystore.ciphertext)),
    ("kdf", .string keystore.stretching.name),
    ("kdfparams", keystore.stretching.toJson),
    ("mac", .string (Hex.encode keystore.code))]

/-- The fields of a keystore. -/
def fields (keystore : Keystore) : List (String × Json) :=
  [("crypto", keystore.cryptoJson), ("id", .string (idText keystore.id)),
    ("version", .ofNat version)]

/-- The account of a key comes in front of the other fields. -/
theorem withAddress_fields (keystore : Keystore) (address : Address) :
    Wallet.withAddress address keystore.fields =
      .object (("address", .ofFixed address) :: keystore.fields) := by
  have stretched : keystore.stretching.toJson.canonical = keystore.stretching.toJson := by
    cases keystore.stretching <;>
      simp +decide [Stretching.toJson, Json.ofNat, Json.canonical, Json.canonicalFields,
        Json.insertField]
  simp +decide [Wallet.withAddress, fields, cryptoJson, Json.ofFixed, Json.ofNat, Json.canonical,
    Json.canonicalFields, Json.insertField, stretched]

@[simp] theorem readDigits_encode (bytes : Bytes) :
    readDigits (.string (Hex.encode bytes)) = some bytes := by
  simp [readDigits, Json.readString, Hex.decode_encode_eq_ok, Except.toOption]

/-- The way in which the password of a new keystore is stretched is read back. -/
theorem readStretching_toJson (salt : Bytes) :
    readStretching (Stretching.scrypt newParams salt keySize).toJson =
      some (.scrypt newParams salt keySize) := by
  have notRepeated :
      readStretching.readPbkdf2 (Stretching.scrypt newParams salt keySize).toJson = none := by
    simp [readStretching.readPbkdf2, Stretching.toJson, Json.source?, Json.countKey,
      Json.Source.required, Json.Source.value?, List.lookup_cons]
  have size : Json.readUInt8 (.ofNat keySize) = some 32 := rfl
  have cost : Json.readUInt32 (.ofNat (2 ^ newParams.logCost)) = some 8192 := rfl
  have lanes : Json.readUInt32 (.ofNat newParams.lanes) = some 1 := rfl
  have width : Json.readUInt32 (.ofNat newParams.width) = some 8 := rfl
  have logCost : Nat.log2 (8192 : UInt32).toNat = newParams.logCost := by decide +kernel
  have inMemory : readStretching.readScrypt (Stretching.scrypt newParams salt keySize).toJson =
      some (.scrypt ⟨Nat.log2 (8192 : UInt32).toNat, 8, 1⟩ salt 32) := by
    simp [readStretching.readScrypt, Stretching.toJson, Json.source?, Json.countKey,
      Json.Source.required, Json.Source.value?, List.lookup_cons, size, cost, lanes, width]
  rw [readStretching, notRepeated, inMemory, logCost]
  rfl

/-- A keystore that was made by encrypting a key is read back from its fields, wherever they
stand. -/
theorem ofJson?_eq_some
    {keystore : Keystore}
    {salt : Bytes}
    (stretched : keystore.stretching = .scrypt newParams salt keySize)
    (sized : keystore.id.length = 16)
    {fields : List (String × Json)}
    (once : ∀ name ∈ ["crypto", "id", "version"], Json.countKey name fields ≤ 1)
    (crypto : fields.lookup "crypto" = some keystore.cryptoJson)
    (id : fields.lookup "id" = some (.string (idText keystore.id)))
    (versioned : fields.lookup "version" = some (.ofNat version)) :
    ofJson? (.object fields) = some keystore := by
  have source : Json.source? ["crypto", "id", "version"] (.object fields) =
      some ⟨fields, false⟩ := by
    rw [Json.source?, if_neg]
    rw [List.any_eq_true]
    rintro ⟨name, present, repeated⟩
    exact absurd (of_decide_eq_true repeated) (Nat.not_lt.mpr (once name present))
  have sourceCrypto : Json.source?
      ["cipher", "cipherparams", "ciphertext", "kdf", "kdfparams", "mac"] keystore.cryptoJson =
        some ⟨[("cipher", .string cipher),
          ("cipherparams", .object [("iv", .string (Hex.encode keystore.start))]),
          ("ciphertext", .string (Hex.encode keystore.ciphertext)),
          ("kdf", .string keystore.stretching.name),
          ("kdfparams", keystore.stretching.toJson),
          ("mac", .string (Hex.encode keystore.code))], false⟩ := rfl
  have start : readStart (.object [("iv", .string (Hex.encode keystore.start))]) =
      some keystore.start := by
    simp [readStart, Json.source?, Json.countKey, Json.Source.required, Json.Source.value?]
  have named : Json.readName [("pbkdf2", ()), ("scrypt", ())] (.string keystore.stretching.name) =
      some () := by
    rw [stretched]
    rfl
  have params : readStretching keystore.stretching.toJson = some keystore.stretching := by
    rw [stretched]
    exact readStretching_toJson salt
  have read : readId? (idText keystore.id) = some keystore.id := readId?_idText sized
  have versionRead : Json.readUInt8 (.ofNat version) = some 3 := rfl
  simp [ofJson?, source, sourceCrypto, Json.Source.required, Json.Source.value?, crypto, id,
    versioned, List.lookup_cons, Json.readString, start, named, params, read, versionRead]

/-! ## Keystores as text -/

theorem readable_cryptoJson
    {keystore : Keystore}
    {salt : Bytes}
    (stretched : keystore.stretching = .scrypt newParams salt keySize)
    (depth : Nat) :
    Json.Readable (depth + 2) keystore.cryptoJson := by
  rw [cryptoJson, stretched]
  simp [Json.Readable, Json.ReadableFields, Stretching.toJson, Json.ofNat, Json.Number.Exact,
    newParams, keySize]

theorem readable_fields
    {keystore : Keystore}
    {salt : Bytes}
    (stretched : keystore.stretching = .scrypt newParams salt keySize) :
    Json.ReadableFields 126 keystore.fields := by
  simp [fields, Json.ReadableFields, readable_cryptoJson stretched 124, Json.Readable, Json.ofNat,
    Json.Number.Exact, version]

end Keystore

namespace Wallet

/-- The first text of a new keystore. -/
def firstText (key : PrivateKey) (password : String) (seeds : KeystoreSeeds) : String :=
  (Keystore.encrypt key password seeds).toJson.compact

/-- The text of a new keystore that also names the account of its key. -/
def finalText (key : PrivateKey) (password : String) (seeds : KeystoreSeeds) : String :=
  (withAddress key.address (Keystore.encrypt key password seeds).fields).indented

section Texts

variable
  (key : PrivateKey)
  (password : String)
  (seeds : KeystoreSeeds)

theorem stretching_encrypt :
    (Keystore.encrypt key password seeds).stretching =
      .scrypt Keystore.newParams seeds.salt Keystore.keySize := by
  rw [Keystore.encrypt]

theorem parse_firstText :
    Json.parse (firstText key password seeds) =
      some (.object (Keystore.encrypt key password seeds).fields) :=
  Json.parse_compact (Keystore.readable_fields (stretching_encrypt key password seeds))

theorem parse_finalText :
    Json.parse (finalText key password seeds) =
      some (.object (("address", .ofFixed key.address) ::
        (Keystore.encrypt key password seeds).fields)) := by
  rw [finalText, Keystore.withAddress_fields]
  exact Json.parse_indented
    ⟨trivial, Keystore.readable_fields (stretching_encrypt key password seeds)⟩

/-- A new keystore is read back from a text that has its fields, whatever other fields there are. -/
theorem ofJson?_encrypt
    {seeds : KeystoreSeeds}
    (sized : seeds.Sized)
    {fields : List (String × Json)}
    (once : ∀ name ∈ ["crypto", "id", "version"], Json.countKey name fields ≤ 1)
    (held : ∀ name ∈ ["crypto", "id", "version"],
      fields.lookup name = (Keystore.encrypt key password seeds).fields.lookup name) :
    Keystore.ofJson? (.object fields) = some (Keystore.encrypt key password seeds) := by
  apply Keystore.ofJson?_eq_some (stretching_encrypt key password seeds) sized.id once
  · exact held "crypto" (by simp)
  · exact held "id" (by simp)
  · exact held "version" (by simp)

/-- A text whose fields are those of a new keystore gives the key back, whatever other fields there
are. -/
theorem keyOf_eq_ok
    {seeds : KeystoreSeeds}
    (sized : seeds.Sized)
    {text : String}
    {fields : List (String × Json)}
    (parsed : Json.parse text = some (.object fields))
    (once : ∀ name ∈ ["crypto", "id", "version"], Json.countKey name fields ≤ 1)
    (held : ∀ name ∈ ["crypto", "id", "version"],
      fields.lookup name = (Keystore.encrypt key password seeds).fields.lookup name) :
    keyOf text password = .ok key := by
  rw [keyOf, parsed, Option.bind_some, ofJson?_encrypt key password sized once held]
  simp [Keystore.decrypt_encrypt key password sized]

variable
  {seeds}
  (sized : seeds.Sized)

include sized

theorem keyOf_firstText : keyOf (firstText key password seeds) password = .ok key := by
  apply keyOf_eq_ok key password sized (parse_firstText key password seeds)
  · simp [Keystore.fields, Json.countKey]
  · simp

theorem keyOf_finalText : keyOf (finalText key password seeds) password = .ok key := by
  apply keyOf_eq_ok key password sized (parse_finalText key password seeds)
  · simp [Keystore.fields, Json.countKey]
  · simp [List.lookup_cons]

/-- A password that gives another code opens nothing. -/
theorem keyOf_finalText_of_otherCode
    {other : String}
    (otherCode : Keystore.codeOf
      (Scrypt.derive Keystore.newParams (Bytes.ofText other) seeds.salt Keystore.keySize)
      (Keystore.encrypt key password seeds).ciphertext ≠
        (Keystore.encrypt key password seeds).code) :
    keyOf (finalText key password seeds) other = .error .keystore := by
  have read : Keystore.ofJson? (.object (("address", .ofFixed key.address) ::
      (Keystore.encrypt key password seeds).fields)) =
        some (Keystore.encrypt key password seeds) := by
    apply ofJson?_encrypt key password sized
    · simp [Keystore.fields, Json.countKey]
    · simp [List.lookup_cons]
  have closed : (Keystore.encrypt key password seeds).open? other = none := by
    have derived : (Keystore.encrypt key password seeds).stretching.derive? (Bytes.ofText other) =
        some (Scrypt.derive Keystore.newParams (Bytes.ofText other) seeds.salt
          Keystore.keySize) := by
      rw [stretching_encrypt, Stretching.derive?, if_pos (by decide)]
    rw [Keystore.open?, derived, Option.bind_eq_bind, Option.bind_some, if_pos otherCode, ite_self]
  rw [keyOf, parse_finalText, Option.bind_some, read]
  simp [Keystore.decrypt, closed]

end Texts

end Wallet
end Valset
