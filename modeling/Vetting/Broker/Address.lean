import Vetting.Text

/-!
The addresses of brokers. An address is a URL that names either a host, with a port and the number of
a database, or the path of a local socket. Main definition: `Address.parse?`.
-/
namespace Vetting.Broker

/-- Where a broker is, and which of its databases to use. -/
inductive Address
  | server (host : String) (port : Nat) (database : Int)
  | socket (path : List UInt8) (database : Int)
  deriving DecidableEq, Repr

namespace Address

/-- The port of a broker unless another is given. -/
def usualPort : Nat := 6379

/-- The characters of a URL that count: those between leading and trailing blanks and control
characters, without tabs and line breaks. -/
def stripped (text : List Char) : List Char :=
  let isEdge (c : Char) : Bool := c.toNat ≤ 0x20
  let inner := ((text.dropWhile isEdge).reverse.dropWhile isEdge).reverse
  inner.filter fun c => c ≠ '\t' && c ≠ '\n' && c ≠ '\r'

/-- The scheme in lower case, and what follows its colon. -/
def scheme? (url : List Char) : Option (String × List Char) :=
  let isInner (c : Char) : Bool := c.isAlphanum || c = '+' || c = '-' || c = '.'
  match url.span isInner with
  | (c :: name, ':' :: rest) =>
    if c.isAlpha then some (String.ofList ((c :: name).map Char.toLower), rest) else none
  | _ => none

/-- What stands before the first character with a property, and the rest from there. -/
def before (stops : List Char) (text : List Char) : List Char × List Char :=
  text.span fun c => !stops.contains c

/-- What stands before and after the last occurrence of a character; nothing before if there is
none. -/
def atLast (mark : Char) (text : List Char) : Option (List Char) × List Char :=
  match before [mark] text.reverse with
  | (_, []) => (none, text)
  | (after, _ :: earlier) => (some earlier.reverse, after.reverse)

/-- The bytes that percent-encoded text stands for. -/
def decoded (text : List Char) : List UInt8 := Percent.decode (Utf8.encode (String.ofList text))

/-- Whether a percent-encoded name or password is text. -/
def isText (part : List Char) : Bool := (Utf8.decode (decoded part)).isSome

/-- A number of at most `limit` in decimal digits, without a leading zero. -/
def octet? (text : List Char) : Option Nat :=
  if text.length > 1 ∧ text.head? = some '0' ∨ text.head? = some '+' then none
  else (Decimal.natural? 255 text).toOption

/-- The pieces between colons; the empty text has none. -/
def pieces (text : List Char) : List (List Char) :=
  if text = [] then [] else text.splitOn ':'

/-- How many groups of sixteen bits the pieces of an address stand for; the last of all may be four
decimal numbers. -/
def groups? (mayEndDotted : Bool) : List (List Char) → Option Nat
  | [] => some 0
  | [last] =>
    if 1 ≤ last.length ∧ last.length ≤ 4 ∧ last.all (Hex.digit? · |>.isSome) then some 1
    else if mayEndDotted ∧ (last.splitOn '.').length = 4 ∧
        (last.splitOn '.').all (octet? · |>.isSome) then some 2
    else none
  | piece :: rest =>
    if 1 ≤ piece.length ∧ piece.length ≤ 4 ∧ piece.all (Hex.digit? · |>.isSome) then
      (groups? mayEndDotted rest).map (· + 1)
    else none

/-- The text before and after the first pair of colons. -/
def atGap : List Char → Option (List Char × List Char)
  | ':' :: ':' :: rest => some ([], rest)
  | c :: rest => (atGap rest).map fun (left, right) => (c :: left, right)
  | [] => none

/-- Whether a text is a numeric address of eight groups, of which a run of zeros may be left out. -/
def isNumeric (text : List Char) : Bool :=
  match atGap text with
  | none => groups? true (pieces text) = some 8
  | some (left, right) =>
    match groups? false (pieces left), groups? true (pieces right) with
    | some l, some r => l + r ≤ 7
    | _, _ => false

/-- The characters that a host name may not have. -/
def forbidden : List Char :=
  ['\x00', '\t', '\n', '\r', ' ', '#', '/', ':', '<', '>', '?', '@', '[', '\\', ']', '^', '|']

/-- Whether a text is a host: a name, or a numeric address in brackets. -/
def isHost : List Char → Bool
  | '[' :: rest => rest.getLast? = some ']' && isNumeric rest.dropLast
  | name => name ≠ [] && name.all fun c => !forbidden.contains c

/-- The host, and the text of the port if there is a colon for it. A colon in brackets is part of the
host. -/
def hostAndPort (text : List Char) : List Char × Option (List Char) :=
  let ends (state : Bool × List Char × Option (List Char)) (c : Char) :=
    match state with
    | (inside, host, some port) => (inside, host, some (c :: port))
    | (inside, host, none) =>
      if c = ':' ∧ !inside then (inside, host, some [])
      else (if c = '[' then true else if c = ']' then false else inside, c :: host, none)
  let (_, host, port) := text.foldl ends (false, [], none)
  (host.reverse, port.map List.reverse)

/-- A port, or the usual one for an empty text. -/
def port? : Option (List Char) → Option Nat
  | none | some [] => some usualPort
  | some ('+' :: _) => none
  | some digits => (Decimal.natural? 65535 digits).toOption

/-- Whether a segment of a path stands for the place itself, and whether for the one above. -/
def isHere (segment : List Char) : Bool :=
  ["." , "%2e"].contains (String.ofList (segment.map Char.toLower))
def isAbove (segment : List Char) : Bool :=
  ["..", ".%2e", "%2e.", "%2e%2e"].contains (String.ofList (segment.map Char.toLower))

/-- A path without the segments that only lead about in it. -/
def resolved (path : List Char) : List Char :=
  let step (done : List (List Char)) (segment : List Char) :=
    if isAbove segment then done.drop 1 else if isHere segment then done else segment :: done
  ['/'].intercalate ((path.splitOn '/').foldl step []).reverse

/-- The number of a database: a path between slashes, or zero for an empty one. -/
def database? (path : List Char) : Option Int :=
  let isSlash (c : Char) : Bool := c = '/'
  match ((resolved path).dropWhile isSlash).reverse.dropWhile isSlash |>.reverse with
  | [] => some 0
  | digits => (Decimal.int64? digits).toOption

/-- The last value of a name in a query. -/
def parameter? (query : List Char) (name : String) : Option (List UInt8) :=
  let plain (text : List Char) := decoded (text.map fun c => if c = '+' then ' ' else c)
  let settings := (query.splitOn '&').filterMap fun setting =>
    if setting = [] then none
    else
      let (key, value) := before ['='] setting
      some (plain key, plain (value.drop 1))
  settings.reverse.lookup (Utf8.encode name)

/-- Whether a query leaves the version of the protocol open or names one that there is. -/
def isSpoken (query : List Char) : Bool :=
  match parameter? query "protocol" with
  | none => true
  | some version => (["2", "resp2", "3", "resp3"].map Utf8.encode).contains version

/-- The parts of what follows a scheme: the authority if there is one, the path, and the query. -/
def parts (rest : List Char) : Option (List Char) × List Char × List Char :=
  let (rest, _) := before ['#'] rest
  let (rest, query) := before ['?'] rest
  match rest with
  | '/' :: '/' :: rest =>
    let (authority, path) := before ['/'] rest
    (some authority, path, query.drop 1)
  | path => (none, path, query.drop 1)

/-- The address of a host. -/
def host? (authority path query : List Char) : Option Address :=
  let (user, place) := atLast '@' authority
  let (name, password) := before [':'] (user.getD [])
  let (host, port) := hostAndPort place
  if isHost host ∧ isText name ∧ isText password ∧ isSpoken query then
    match port? port, database? path with
    | some port, some database => some (.server (String.ofList host) port database)
    | _, _ => none
  else none

/-- The path after an authority that names this machine: no host, and then neither a port nor anybody
before an at sign, or `localhost`. A backslash ends the port and begins the path. -/
def localPath? (authority path : List Char) : Option (List Char) :=
  let (user, place) := atLast '@' authority
  let (host, port) := hostAndPort place
  if host = [] then if port = none ∧ (user = none ∨ user = some [':']) then some path else none
  else
    let (digits, more) := before ['\\'] (port.getD [])
    if host = "localhost".toList ∧ (port? (some digits)).isSome then
      some (if more = [] then path else '/' :: more ++ path)
    else none

/-- The address of a socket. -/
def socket? (authority : Option (List Char)) (path query : List Char) : Option Address :=
  let path := match authority with
    | none => some path
    | some authority => localPath? authority path
  let database := match parameter? query "db" with
    | none => some 0
    | some digits => (Utf8.decode digits).bind fun text => (Decimal.int64? text.toList).toOption
  match path, database with
  | some ('/' :: path), some database =>
    if isSpoken query then some (.socket (decoded ('/' :: path)) database) else none
  | _, _ => none

/-- The address that a text is. Connections are never encrypted, so schemes that ask for that name no
broker. -/
def parse? (text : String) : Option Address :=
  match scheme? (stripped text.toList) with
  | none => none
  | some (scheme, rest) =>
    let (authority, path, query) := parts rest
    if scheme = "redis" then authority.bind fun authority => host? authority path query
    else if scheme = "unix" ∨ scheme = "redis+unix" then socket? authority path query
    else none

end Address

end Vetting.Broker
