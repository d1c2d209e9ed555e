import Mathlib.Algebra.GroupWithZero.Nat
import Mathlib.Data.List.DropRight

/-! The URL a server announces itself under, and the one form the directory keeps of it. A string is
the list of its characters. -/
namespace Phase.Directory

abbrev Text := List Char

def byteLen (text : Text) : Nat := (text.map Char.utf8Size).sum

/-- The Unicode property `White_Space`. -/
def isWhitespace (c : Char) : Bool :=
  let n := c.toNat
  (9 ≤ n && n ≤ 13) || n = 0x20 || n = 0x85 || n = 0xA0 || n = 0x1680 ||
    (0x2000 ≤ n && n ≤ 0x200A) || n = 0x2028 || n = 0x2029 || n = 0x202F || n = 0x205F || n = 0x3000

/-- The Unicode category `Cc`. -/
def isControl (c : Char) : Bool :=
  let n := c.toNat
  n ≤ 0x1F || (0x7F ≤ n && n ≤ 0x9F)

def trim (text : Text) : Text := (text.dropWhile isWhitespace).rdropWhile isWhitespace

def trimEndMatches (c : Char) (text : Text) : Text := text.rdropWhile (· = c)

def maxServerUrlLen : Nat := 256

def validateToken (field : String) (value : Text) (max : Nat) : Except String Unit := do
  if max < byteLen value then throw s!"{field} must be at most {max} bytes"
  if value.any isControl then throw s!"{field} must not contain control characters"

def ofDigits (digits : Text) : Nat := Nat.ofDigitChars 10 digits 0

/-- One plus sign may lead. -/
def unsigned : Text → Text
  | '+' :: digits => digits
  | digits => digits

def parseU16 (text : Text) : Option Nat :=
  let digits := unsigned text
  if digits ≠ [] && digits.all Char.isDigit && ofDigits digits < 2 ^ 16 then some (ofDigits digits)
  else none

def rsplitOnce (c : Char) (text : Text) : Option (Text × Text) :=
  match text.reverse.dropWhile (· ≠ c) with
  | [] => none
  | _ :: before => some (before.reverse, text.rtakeWhile (· ≠ c))

def splitPort (authority : Text) : Except String (Text × Option Nat) :=
  match rsplitOnce ':' authority with
  | some (host, port) =>
    match parseU16 port with
    | some (port + 1) => .ok (host, some (port + 1))
    | _ => .error "url port must be a number in 1..=65535"
  | none => .ok (authority, none)

/-- What is left after a number of at most so many digits. -/
def readNumber (isDigit : Char → Bool) (value : Text → Nat) (maxDigits max : Nat)
    (allowZeroPrefix : Bool) (text : Text) : Option Text :=
  let digits := text.takeWhile isDigit
  if digits = [] || maxDigits < digits.length then none
  else if !allowZeroPrefix && digits.head? = some '0' && 1 < digits.length then none
  else if max < value digits then none
  else some (text.dropWhile isDigit)

def readGivenChar (c : Char) : Text → Option Text
  | [] => none
  | d :: rest => if d = c then some rest else none

/-- The separator stands before every part but the first. -/
def readSeparator (separator : Char) (index : Nat) (inner : Text → Option Text) (text : Text) :
    Option Text :=
  if index = 0 then inner text else (readGivenChar separator text).bind inner

def readIpv4Addr (text : Text) : Option Text :=
  (List.range 4).foldlM (fun text index =>
    readSeparator '.' index (readNumber Char.isDigit ofDigits 3 255 false) text) text

def isHexDigit (c : Char) : Bool := c.isDigit || ('a' ≤ c && c ≤ 'f') || ('A' ≤ c && c ≤ 'F')

/-- How many groups are read, whether they end in an IPv4 address, and what is left. -/
def readGroups : Nat → Nat → Text → Nat × Bool × Text
  | 0, index, text => (index, false, text)
  | left + 1, index, text =>
    match if 0 < left then readSeparator ':' index readIpv4Addr text else none with
    | some rest => (index + 2, true, rest)
    | none =>
      -- Four hexadecimal digits always fit.
      match readSeparator ':' index (readNumber isHexDigit (fun _ => 0) 4 0xFFFF true) text with
      | some rest => readGroups left (index + 1) rest
      | none => (index, false, text)

def readIpv6Addr (text : Text) : Option Text :=
  let (headSize, headIpv4, rest) := readGroups 8 0 text
  if headSize = 8 then some rest
  else if headIpv4 then none
  else do
    let rest ← readGivenChar ':' rest
    let rest ← readGivenChar ':' rest
    return (readGroups (7 - headSize) 0 rest).2.2

/-- Whether all of the text is an IP address. -/
def isIpAddr (text : Text) : Bool :=
  match readIpv4Addr text with
  | some rest => rest.isEmpty
  | none => readIpv6Addr text = some []

def toAsciiLowercase (text : Text) : Text := text.map Char.toLower

/-- Lower case, and without one root dot. -/
def canonicalHost (host : Text) : Text :=
  let lowered := toAsciiLowercase host
  if lowered.getLast? = some '.' then lowered.dropLast else lowered

def nonPublicTlds : List Text := ["localhost", "local", "internal", "arpa"].map String.toList

def labels (host : Text) : List Text := host.splitOn '.'

def validateLabel (label : Text) : Except String Unit := do
  if label.isEmpty then throw "url host labels must not be empty"
  if 63 < byteLen label then throw "url host labels must be at most 63 bytes"
  if !label.all fun c => c.isAlphanum || c = '-' then
    throw "url host labels must be ASCII letters, digits or hyphens"
  if label.head? = some '-' || label.getLast? = some '-' then
    throw "url host labels must not start or end with a hyphen"

def validateHost (host : Text) : Except String Unit := do
  if isIpAddr host then throw "url host must be a DNS name, not an IP literal"
  if (labels host).length < 2 then
    throw "url host must be a public DNS name with at least two labels"
  (labels host).forM validateLabel
  if (labels host).getLastD [] ∈ nonPublicTlds then
    throw "url host must be reachable from the public internet"

def scheme : Text := "wss://".toList

structure UrlParts where
  host : Text
  port : Option Nat
  path : Text
  deriving DecidableEq

/-- The parts of an announced URL that passes every rule. -/
def announcedParts (raw : Text) : Except String UrlParts := do
  let trimmed := trim raw
  validateToken "url" trimmed maxServerUrlLen
  match scheme.isPrefixOf? trimmed with
  | none => throw "url must start with wss://"
  | some rest =>
    if rest.any (['?', '#', '@', ' '].contains ·) then
      throw "url must not contain a query, fragment, userinfo or space"
    let authority := rest.takeWhile (· ≠ '/')
    let path := rest.dropWhile (· ≠ '/')
    let (host, port) ← splitPort authority
    let host := canonicalHost host
    validateHost host
    return { host, port, path }

def portSuffix : Option Nat → Text
  | none => []
  | some port => if port = 443 then [] else ':' :: Nat.toDigits 10 port

/-- Interior slashes are left alone. -/
def UrlParts.rebuild (parts : UrlParts) : Text :=
  scheme ++ parts.host ++ portSuffix parts.port ++ trimEndMatches '/' parts.path

def normalizeAnnouncedUrl (raw : Text) : Except String Text :=
  (announcedParts raw).map UrlParts.rebuild

/-- A URL that has passed every rule. -/
structure AnnouncedUrl where
  text : Text
  announced : ∃ raw, normalizeAnnouncedUrl raw = .ok text

/-- What a string is deserialized by. -/
def AnnouncedUrl.tryFrom (raw : Text) : Except String AnnouncedUrl :=
  match passed : normalizeAnnouncedUrl raw with
  | .ok text => .ok ⟨text, raw, passed⟩
  | .error message => .error message

def infoScheme : Text := "https://".toList

def infoPath : Text := "/info".toList

/-- Where the directory fetches the info document of a server from. -/
def AnnouncedUrl.infoUrl (url : AnnouncedUrl) : Text :=
  let rest := (scheme.isPrefixOf? url.text).getD url.text
  infoScheme ++ rest.takeWhile (· ≠ '/') ++ infoPath

end Phase.Directory
