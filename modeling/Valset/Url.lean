import Valset.Text.Utf8
import Valset.Url.Punycode

/-!
# Addresses of endpoints

Checks whether a text is an absolute URL, and gives its usual written form: scheme and host in lower
case, no port where it is the usual one, and a path that starts with a slash.
-/

namespace Valset
namespace Url

/-- Why a text is not an absolute URL. -/
inductive Error
  | relativeWithoutBase
  | emptyHost
  | invalidPort
  | invalidDomain
  | invalidDomainCharacter
  | invalidIpv4
  | invalidIpv6
deriving DecidableEq, Repr

/-- The wording of an error. -/
def Error.message : Error → String
  | .relativeWithoutBase => "relative URL without a base"
  | .emptyHost => "empty host"
  | .invalidPort => "invalid port number"
  | .invalidDomain => "invalid international domain name"
  | .invalidDomainCharacter => "invalid domain character"
  | .invalidIpv4 => "invalid IPv4 address"
  | .invalidIpv6 => "invalid IPv6 address"

/-- The parts of an absolute URL. A URL without authority has no host. -/
structure Parts where
  scheme : String
  host : Option String
  port : Option Nat
  rest : String
deriving DecidableEq, Repr

/-! ## Numbers and addresses -/

/-- The value of a digit in a base. -/
def digit? (base : Nat) (c : Char) : Option Nat :=
  let value :=
    if c.isDigit then c.toNat - '0'.toNat
    else if 'a' ≤ c ∧ c ≤ 'z' then c.toNat - 'a'.toNat + 10
    else if 'A' ≤ c ∧ c ≤ 'Z' then c.toNat - 'A'.toNat + 10
    else base
  if value < base then some value else none

/-- The number with the given digits in a base. -/
def number? (base : Nat) (chars : List Char) : Option Nat :=
  chars.foldlM (fun value c => (value * base + ·) <$> digit? base c) 0

/-- One number of a dotted address: hexadecimal behind `0x`, octal behind `0`, else decimal. -/
def dottedNumber? : List Char → Option Nat
  | [] => none
  | '0' :: 'x' :: rest => number? 16 rest
  | '0' :: 'X' :: rest => number? 16 rest
  | '0' :: rest => number? 8 rest
  | chars => number? 10 chars

/-- The pieces of a text between dots; a dot at the end adds none. -/
def dottedPieces (host : List Char) : List (List Char) :=
  let pieces := host.splitOn '.'
  if pieces.length ≠ 1 ∧ pieces.getLast? = some [] then pieces.dropLast else pieces

/-- Whether a host is meant as a dotted address, because its last piece is a number. -/
def endsInNumber (host : List Char) : Bool :=
  match (dottedPieces host).getLast? with
  | some last => (!last.isEmpty && last.all Char.isDigit) || (dottedNumber? last).isSome
  | none => false

/-- Checks a dotted address of at most four numbers, the last of which fills the rest. -/
def checkIpv4 (host : List Char) : Except Error Unit :=
  match (dottedPieces host).mapM dottedNumber? with
  | none => .error .invalidIpv4
  | some numbers =>
    match numbers.reverse with
    | [] => .error .invalidIpv4
    | last :: before =>
      if before.length < 4 ∧ before.all (· < 256) ∧ last < Nat.pow 256 (4 - before.length) then
        .ok ()
      else .error .invalidIpv4

/-- Whether a piece between colons is a group of one to four hexadecimal digits. -/
def isGroup (piece : List Char) : Bool :=
  0 < piece.length && piece.length ≤ 4 && piece.all fun c => (digit? 16 c).isSome

/-- Whether a piece is four decimal numbers below 256 without leading zeros. -/
def isDottedQuad (piece : List Char) : Bool :=
  let numbers := piece.splitOn '.'
  numbers.length == 4 && numbers.all fun digits =>
    (number? 10 digits).any (· < 256) && !digits.isEmpty &&
      (digits.length == 1 || digits.head? != some '0')

/-- The number of groups in pieces between colons; a dotted address at the end counts for two. -/
def groups? (pieces : List (List Char)) : Option Nat :=
  match pieces.reverse with
  | [] => some 0
  | last :: before =>
    if ¬ before.all isGroup then none
    else if isGroup last then some pieces.length
    else if isDottedQuad last then some (pieces.length + 1)
    else none

/-- The pieces of a text before and after its first double colon. -/
def splitDoubleColon : List Char → Option (List Char × List Char)
  | ':' :: ':' :: rest => some ([], rest)
  | c :: rest => (splitDoubleColon rest).map fun (before, after) => (c :: before, after)
  | [] => none

/-- The pieces of a text between colons; an empty text has none. -/
def colonPieces (chars : List Char) : List (List Char) :=
  if chars.isEmpty then [] else chars.splitOn ':'

/-- Checks an address of eight groups, some of which a double colon may stand for. -/
def checkIpv6 (chars : List Char) : Except Error Unit :=
  match splitDoubleColon chars with
  | none => if groups? (colonPieces chars) = some 8 then .ok () else .error .invalidIpv6
  | some (before, after) =>
    match groups? (colonPieces before), groups? (colonPieces after) with
    | some front, some back =>
      if (colonPieces before).all isGroup ∧ front + back ≤ (if back = 0 then 7 else 8) then .ok ()
      else .error .invalidIpv6
    | _, _ => .error .invalidIpv6

/-! ## Hosts -/

/-- The bytes of a text with each `%` and two digits replaced by the byte they stand for. -/
def percentDecode : List Char → Bytes
  | '%' :: high :: low :: rest =>
    match digit? 16 high, digit? 16 low with
    | some h, some l => UInt8.ofNat (16 * h + l) :: percentDecode rest
    | _, _ => Bytes.ofText "%" ++ percentDecode (high :: low :: rest)
  | c :: rest => Bytes.ofText (String.singleton c) ++ percentDecode rest
  | [] => []

/-- Whether a character may not stand in the name of a host. -/
def isForbidden (c : Char) : Bool :=
  c.toNat ≤ 0x20 || c.toNat == 0x7f || "#/:<>?@[\\]^|%".toList.contains c

/-- Whether a character may not stand in a host of an unknown scheme. -/
def isForbiddenOpaque (c : Char) : Bool :=
  "\x00\t\n\r #/:<>?@[\\]^|".toList.contains c

/-- A host in square brackets. -/
def bracketed (host : List Char) : Except Error String := do
  if host.getLast? ≠ some ']' then
    throw .invalidIpv6
  checkIpv6 (host.drop 1).dropLast
  return String.ofList host

/-- The host of a URL of a scheme whose hosts are domains or addresses. -/
def domain (host : List Char) : Except Error String :=
  if host.head? = some '[' then bracketed host
  else
    match Text.ofUtf8? (percentDecode host) with
    | none => .error .invalidDomain
    | some decoded => do
      let chars := decoded.toList.map Char.toLower
      if chars.any isForbidden ∨ ¬ (chars.splitOn '.').all Punycode.isSound then
        throw .invalidDomain
      if chars.isEmpty then
        throw .emptyHost
      if endsInNumber chars then
        checkIpv4 chars
      return String.ofList chars

/-- The host of a URL of any other scheme. -/
def opaqueHost (host : List Char) : Except Error String :=
  if host.head? = some '[' then bracketed host
  else if host.any isForbiddenOpaque then .error .invalidDomainCharacter
  else .ok (String.ofList host)

/-! ## The parts -/

/-- The schemes whose URLs have an authority, and their usual ports. -/
def usualPorts : List (String × Nat) :=
  [("http", 80), ("https", 443), ("ws", 80), ("wss", 443), ("ftp", 21)]

/-- Whether a character ends the authority. -/
def endsAuthority (special : Bool) (c : Char) : Bool :=
  c == '/' || c == '?' || c == '#' || (special && c == '\\')

/-- The authority behind its last `@`, and whether anything stands before that. -/
def dropUser (authority : List Char) : List Char × Bool :=
  let behind := (authority.reverse.takeWhile (· != '@')).reverse
  (behind, behind.length + 1 < authority.length)

/-- Host and port, cut at the first colon outside square brackets. -/
def splitPort (inside : Bool) : List Char → List Char × Option (List Char)
  | [] => ([], none)
  | c :: rest =>
    if c = ':' ∧ ¬ inside then ([], some rest)
    else
      let inside := if c = '[' then true else if c = ']' then false else inside
      let (host, port) := splitPort inside rest
      (c :: host, port)

/-- The port with the given digits. -/
def port (digits : List Char) : Except Error (Option Nat) :=
  if digits.isEmpty then .ok none
  else
    match number? 10 digits with
    | some value => if value < UInt16.size then .ok (some value) else .error .invalidPort
    | none => .error .invalidPort

/-- The parts of a URL behind the scheme and the slashes. -/
def afterSlashes (scheme : String) (chars : List Char) : Except Error Parts := do
  let usual := usualPorts.lookup scheme
  let special := usual.isSome
  let authority := chars.takeWhile fun c => !endsAuthority special c
  let rest := chars.dropWhile fun c => !endsAuthority special c
  let (behind, user) := dropUser authority
  let (host, digits) := splitPort false behind
  if host.isEmpty ∧ (special ∨ user ∨ digits.isSome) then
    throw .emptyHost
  let host ← if special then domain host else opaqueHost host
  let port ← port (digits.getD [])
  let rest := if special ∧ rest.head? ≠ some '/' then '/' :: rest else rest
  return {
    scheme
    host := some host
    port := if port = usual then none else port
    rest := String.ofList rest
  }

/-- Whether a character may stand in a scheme behind the first letter. -/
def isSchemeChar (c : Char) : Bool :=
  c.isAlphanum || c == '+' || c == '-' || c == '.'

/-- The scheme in front of a colon, in lower case, and what follows. -/
def scheme? (chars : List Char) : Option (String × List Char) :=
  match chars with
  | first :: _ =>
    let scheme := chars.takeWhile isSchemeChar
    match chars.dropWhile isSchemeChar with
    | ':' :: rest =>
      if first.isAlpha then some (String.ofList (scheme.map Char.toLower), rest) else none
    | _ => none
  | [] => none

/-- Whether a character is dropped at both ends. -/
def isEdge (c : Char) : Bool :=
  c.toNat ≤ 0x20

/-- A text without control characters and spaces at its ends, and without tabs and line breaks. -/
def tidy (text : String) : List Char :=
  let chars := text.toList.dropWhile isEdge
  let chars := (chars.reverse.dropWhile isEdge).reverse
  chars.filter fun c => c != '\t' && c != '\n' && c != '\r'

/-- The parts of an absolute URL. -/
def parse (text : String) : Except Error Parts :=
  match scheme? (tidy text) with
  | none => .error .relativeWithoutBase
  | some (scheme, rest) =>
    if (usualPorts.lookup scheme).isSome then
      afterSlashes scheme (rest.dropWhile fun c => c == '/' || c == '\\')
    else
      match rest with
      | '/' :: '/' :: rest => if scheme = "file" then .ok ⟨scheme, none, none, String.ofList rest⟩
        else afterSlashes scheme rest
      | rest => .ok ⟨scheme, none, none, String.ofList rest⟩

/-- The written form of a URL. -/
def Parts.text (parts : Parts) : String :=
  match parts.host with
  | none => s!"{parts.scheme}:{parts.rest}"
  | some host =>
    let port := match parts.port with
      | some port => s!":{port}"
      | none => ""
    s!"{parts.scheme}://{host}{port}{parts.rest}"

end Url
end Valset
