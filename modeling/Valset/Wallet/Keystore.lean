import Valset.Hash.Scrypt
import Valset.Json.Reader
import Valset.Wallet.Aes
import Valset.Wallet.PrivateKey

/-!
# Keystores

A signing key encrypted under a password. The password is stretched into a key of thirty-two bytes:
the first half encrypts, and a hash of the second half and the encrypted text shows whether a
password is the right one.
-/

namespace Valset

/-- How a password is stretched, and how long the result is. -/
inductive Stretching
  | pbkdf2 (rounds : Nat) (salt : Bytes) (size : Nat)
  | scrypt (params : Scrypt.Params) (salt : Bytes) (size : Nat)
deriving DecidableEq

namespace Stretching

/-- The stretched password, unless the parameters are out of range. -/
def derive? (password : Bytes) : Stretching → Option Bytes
  | pbkdf2 rounds salt size => some (Pbkdf2.derive password salt rounds size)
  | scrypt params salt size =>
    if params.isValid then some (Scrypt.derive params password salt size) else none

/-- The name of the way of stretching. -/
def name : Stretching → String
  | pbkdf2 _ _ _ => "pbkdf2"
  | scrypt _ _ _ => "scrypt"

/-- The parameters as JSON. -/
def toJson : Stretching → Json
  | pbkdf2 rounds salt size => .object [
      ("c", .ofNat rounds), ("dklen", .ofNat size), ("prf", .string "hmac-sha256"),
      ("salt", .string (Hex.encode salt))]
  | scrypt params salt size => .object [
      ("dklen", .ofNat size), ("n", .ofNat (Nat.pow 2 params.logCost)), ("p", .ofNat params.lanes),
      ("r", .ofNat params.width), ("salt", .string (Hex.encode salt))]

end Stretching

/-- An encrypted key. -/
structure Keystore where
  start : Bytes
  ciphertext : Bytes
  stretching : Stretching
  code : Bytes
  id : Bytes
deriving DecidableEq

/-- The random bytes that go into a keystore. -/
structure KeystoreSeeds where
  salt : Bytes
  start : Bytes
  id : Bytes

namespace Keystore

/-- The version of the format. -/
def version : Nat := 3

/-- The name of the cipher. -/
def cipher : String := "aes-128-ctr"

/-- How the passwords of new keystores are stretched. -/
def newParams : Scrypt.Params where
  logCost := 13
  width := 8
  lanes := 1

/-- The length of a stretched password. -/
def keySize : Nat := 32

/-- The length of the first value of the counter. -/
def startSize : Nat := 16

/-- The hash that shows whether a password is the right one. -/
def codeOf (stretched ciphertext : Bytes) : Bytes :=
  (Keccak256.hash ((stretched.drop 16).take 16 ++ ciphertext)).bytes

/-- Adds the stream of a stretched password to a text. -/
def applyStream (stretched start text : Bytes) : Bytes :=
  Aes.counterMode (stretched.take 16) (start.take startSize) text

/-- Encrypts a key. -/
def encrypt (key : PrivateKey) (password : String) (seeds : KeystoreSeeds) : Keystore :=
  let password := Bytes.ofText password
  let stretched := Scrypt.derive newParams password seeds.salt keySize
  let ciphertext := applyStream stretched seeds.start key.bytes
  { start := seeds.start
    ciphertext
    stretching := .scrypt newParams seeds.salt keySize
    code := codeOf stretched ciphertext
    id := seeds.id }

/-- Why a keystore does not give a key. -/
inductive Error
  | undecryptable
  | outOfRange
deriving DecidableEq, Repr

/-- The text in a keystore, if the password is the right one. -/
def open? (keystore : Keystore) (password : String) : Option Bytes := do
  let stretched ← keystore.stretching.derive? (Bytes.ofText password)
  if stretched.length < keySize ∨ keystore.start.length < startSize then none
  else if codeOf stretched keystore.ciphertext ≠ keystore.code then none
  else some (applyStream stretched keystore.start keystore.ciphertext)

/-- The key in a keystore. -/
def decrypt (keystore : Keystore) (password : String) : Except Error PrivateKey :=
  match keystore.open? password with
  | none => .error .undecryptable
  | some text =>
    if text.length ≠ keySize then .error .undecryptable
    else
      match PrivateKey.ofBytes? text with
      | some key => .ok key
      | none => .error .outOfRange

/-! ## The text of the identifier -/

/-- The lengths of the groups of digits of an identifier. -/
def idGroups : List Nat := [8, 4, 4, 4, 12]

/-- Cuts characters into groups with given lengths. -/
def cutGroups : List Nat → List Char → List (List Char)
  | [], _ => []
  | size :: rest, chars => chars.take size :: cutGroups rest (chars.drop size)

/-- The text of an identifier: its digits in groups. -/
def idText (id : Bytes) : String :=
  String.ofList (List.intercalate ['-'] (cutGroups idGroups (Hex.encodeChars id)))

/-- The bytes of an identifier marked as random. -/
def markRandom (bytes : Bytes) : Bytes :=
  bytes.mapIdx fun index byte =>
    if index = 6 then (byte &&& 0x0f) ||| 0x40
    else if index = 8 then (byte &&& 0x3f) ||| 0x80
    else byte

/-- What stands in front of an identifier that is written as a name. -/
def idMarker : List Char := "urn:uuid:".toList

/-- The digits of an identifier in groups. -/
def readGroups? (chars : List Char) : Option (List Char) :=
  let groups := chars.splitOn '-'
  if groups.map (·.length) = idGroups then some groups.flatten else none

/-- The bytes of an identifier: digits in groups, also in braces or behind a marker, or digits
alone. -/
def readId? (text : String) : Option Bytes := do
  let chars := text.toList
  let digits ←
    if chars.length = 32 then some chars
    else if chars.length = 38 ∧ chars.head? = some '\x7b' ∧ chars.getLast? = some '\x7d' then
      readGroups? (chars.drop 1).dropLast
    else if idMarker.isPrefixOf chars then readGroups? (chars.drop idMarker.length)
    else readGroups? chars
  (Hex.decode (String.ofList digits)).toOption

/-! ## JSON -/

/-- A keystore as JSON. -/
def toJson (keystore : Keystore) : Json :=
  .object [
    ("crypto", .object [
      ("cipher", .string cipher),
      ("cipherparams", .object [("iv", .string (Hex.encode keystore.start))]),
      ("ciphertext", .string (Hex.encode keystore.ciphertext)),
      ("kdf", .string keystore.stretching.name),
      ("kdfparams", keystore.stretching.toJson),
      ("mac", .string (Hex.encode keystore.code))]),
    ("id", .string (idText keystore.id)),
    ("version", .ofNat version)]

/-- Reads the digits of bytes. -/
def readDigits : Json.Reader Bytes := fun json => do
  (Hex.decode (← Json.readString json)).toOption

/-- Reads the parameters of stretching. -/
def readStretching : Json.Reader Stretching := fun json =>
  readPbkdf2 json <|> readScrypt json
where
  /-- Reads the parameters of repeated hashing. -/
  readPbkdf2 : Json.Reader Stretching := fun json => do
    let source ← Json.source? ["c", "dklen", "prf", "salt"] json
    let rounds ← source.required "c" Json.readUInt32
    let size ← source.required "dklen" Json.readUInt8
    let _ ← source.required "prf" Json.readString
    return .pbkdf2 rounds.toNat (← source.required "salt" readDigits) size.toNat
  /-- Reads the parameters of stretching in memory. -/
  readScrypt : Json.Reader Stretching := fun json => do
    let source ← Json.source? ["dklen", "n", "p", "r", "salt"] json
    let size ← source.required "dklen" Json.readUInt8
    let cost ← source.required "n" Json.readUInt32
    let lanes ← source.required "p" Json.readUInt32
    let width ← source.required "r" Json.readUInt32
    let params : Scrypt.Params := ⟨Nat.log2 cost.toNat, width.toNat, lanes.toNat⟩
    return .scrypt params (← source.required "salt" readDigits) size.toNat

/-- Reads the first value of the counter. -/
def readStart : Json.Reader Bytes := fun json => do
  (← Json.source? ["iv"] json).required "iv" readDigits

/-- Reads a keystore. -/
def ofJson? : Json.Reader Keystore := fun json => do
  let source ← Json.source? ["crypto", "id", "version"] json
  let crypto ← source.required "crypto"
    (Json.source? ["cipher", "cipherparams", "ciphertext", "kdf", "kdfparams", "mac"])
  let id ← source.required "id" Json.readString
  let _ ← source.required "version" Json.readUInt8
  let _ ← crypto.required "cipher" Json.readString
  let _ ← crypto.required "kdf" (Json.readName [("pbkdf2", ()), ("scrypt", ())])
  return {
    start := ← crypto.required "cipherparams" readStart
    ciphertext := ← crypto.required "ciphertext" readDigits
    stretching := ← crypto.required "kdfparams" readStretching
    code := ← crypto.required "mac" readDigits
    id := ← readId? id
  }

end Keystore
end Valset
