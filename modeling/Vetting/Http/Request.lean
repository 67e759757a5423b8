import Vetting.Text

/-!
Requests: method, target, headers and body, and what handlers take from them: the path's segments, the
bearer token, the media type. A target is a path with a query, a star, an authority, or an absolute address;
`Target.path?` is what of it counts. A media type has a type, a subtype with an optional suffix after its
last plus, and parameters, which must be well formed and are not kept.
-/
namespace Vetting.Http.Target

/-- The bytes that paths and queries both may have. -/
def isCommon (b : UInt8) : Bool := b == 0x21 || (0x24 ≤ b && b ≤ 0x3B) || b == 0x3D || 0x7F ≤ b

/-- The bytes of a path. -/
def isOfPath (b : UInt8) : Bool :=
  isCommon b || b == 0x22 || (0x40 ≤ b && b ≤ 0x5F) || (0x61 ≤ b && b ≤ 0x7E)

/-- The bytes of a query. -/
def isOfQuery (b : UInt8) : Bool := isCommon b || (0x3F ≤ b && b ≤ 0x7E)

/-- The path in a path with a query and a fragment; an empty one stands for the root. -/
def pathOf? (text : List UInt8) : Option (List UInt8) :=
  let path := text.takeWhile fun b => b ≠ 63 && b ≠ 35
  let query := ((text.drop path.length).takeWhile (· ≠ 35)).drop 1
  if path.all isOfPath && query.all isOfQuery then some (if path = [] then [47] else path) else none

/-- Whether a byte ends an authority. -/
def endsAuthority (b : UInt8) : Bool := b == 47 || b == 63 || b == 35

/-- The bytes that mean nothing in particular in an authority. -/
def isPlain (b : UInt8) : Bool :=
  let c := Char.ofNat b.toNat
  c.isAlphanum || "!$&'()*+,-.;=_~".toList.contains c

/-- What counts of an authority so far: the colons of the part that it is in, its brackets, and
whether there is a percent sign in the part or an at sign right before. -/
structure Progress where
  colons : Nat := 0
  opened : Bool := false
  closed : Bool := false
  percent : Bool := false
  atSign : Bool := false

/-- The progress after one more byte; nothing if it may not come here. An at sign and a closing
bracket begin a new part. -/
def Progress.next (p : Progress) (b : UInt8) : Option Progress :=
  let p := { p with atSign := b == 64 }
  if b = 58 then if p.colons < 8 then some { p with colons := p.colons + 1 } else none
  else if b = 91 then if p.opened || p.percent then none else some { p with opened := true }
  else if b = 93 then
    if p.opened && !p.closed then some { p with closed := true, colons := 0, percent := false } else none
  else if b = 64 then some { p with colons := 0, percent := false }
  else if b = 37 then some { p with percent := true }
  else if isPlain b then some p
  else none

/-- Whether an authority may end here. -/
def Progress.isEnd (p : Progress) : Bool :=
  p.opened == p.closed && p.colons ≤ 1 && !p.percent && !p.atSign

/-- Whether bytes are an authority, which may be empty. -/
def isAuthority (text : List UInt8) : Bool := (text.foldlM Progress.next {}).any Progress.isEnd

/-- The bytes of a scheme. -/
def isOfScheme (b : UInt8) : Bool :=
  let c := Char.ofNat b.toNat
  c.isAlphanum || c == '+' || c == '-' || c == '.' || c == '~'

/-- The scheme, and what follows its colon and two slashes. -/
def scheme? (target : List UInt8) : Option (List UInt8 × List UInt8) :=
  let scheme := target.takeWhile isOfScheme
  match target.drop scheme.length with
  | 58 :: 47 :: 47 :: rest => some (scheme, rest)
  | _ => none

/-- The longest target and the longest scheme. -/
def longest : Nat := 65534
def longestScheme : Nat := 64

/-- The path of a target, if it is one. An authority has the empty path. -/
def path? (target : List UInt8) : Option (List UInt8) :=
  if target.length > longest then none
  else
    match target with
    | [] => none
    | [42] => some [42]
    | 47 :: _ => pathOf? target
    | _ =>
      match scheme? target with
      | none => if isAuthority target then some [] else none
      | some (scheme, rest) =>
        let authority := rest.takeWhile fun b => !endsAuthority b
        if scheme.length ≤ longestScheme && authority ≠ [] && isAuthority authority then
          pathOf? (rest.drop authority.length)
        else none

end Vetting.Http.Target

namespace Vetting.Http

/-- A media type in lower case. -/
structure MediaType where
  type : List Char
  subtype : List Char
  /-- What follows the last plus. -/
  suffix : Option (List Char)
  deriving DecidableEq, Repr

namespace MediaType

/-- The characters of names in a media type. -/
def isToken (c : Char) : Bool := c.isAlphanum || "!#$%&'*+-.^_`|~".toList.contains c

/-- Whether the characters after a semicolon are parameters. Blanks may precede a name; a value may
stand in quotes, and only then be followed by blanks. -/
inductive ParameterState
  | start
  | name
  | valueStart
  | value
  | quotedStart
  | quoted
  | afterQuoted
  deriving DecidableEq

/-- The state after one more character; nothing if it may not come here. -/
def ParameterState.next : ParameterState → Char → Option ParameterState
  | .start, c => if c = ' ' then some .start else if isToken c then some .name else none
  | .name, c => if c = '=' then some .valueStart else if isToken c then some .name else none
  | .valueStart, c => if c = '"' then some .quotedStart else if isToken c then some .value else none
  | .value, c => if c = ';' then some .start else if isToken c then some .value else none
  | .quotedStart, c => if 31 < c.toNat ∧ c.toNat ≠ 127 then some .quoted else none
  | .quoted, c =>
    if c = '"' then some .afterQuoted
    else if 31 < c.toNat ∧ c.toNat ≠ 127 then some .quoted
    else none
  | .afterQuoted, c => if c = ' ' then some .afterQuoted else if c = ';' then some .start else none

/-- Whether parameters may end here. -/
def ParameterState.isEnd : ParameterState → Bool
  | .start | .valueStart | .value | .afterQuoted => true
  | .name | .quotedStart | .quoted => false

/-- Whether a text is a list of parameters. -/
def areParameters (text : List Char) : Bool :=
  match text.foldlM ParameterState.next .start with
  | some state => state.isEnd
  | none => false

/-- Splits a subtype at its last plus, unless that is its first character. -/
def splitSuffix (name : List Char) : List Char × Option (List Char) :=
  let suffix := (name.reverse.takeWhile (· ≠ '+')).reverse
  let rest := name.take (name.length - suffix.length)
  if rest.length > 1 then (rest.dropLast, some suffix) else (name, none)

/-- Reads a media type. -/
def parse? (text : String) : Option MediaType :=
  let text := text.toList
  let type := text.takeWhile isToken
  match text.drop type.length with
  | '/' :: rest =>
    let name := rest.takeWhile isToken
    let parameters := match rest.drop name.length with
      | [] => true
      | c :: parameters => c == ';' && !name.isEmpty && areParameters parameters
    if !type.isEmpty && parameters then
      let (subtype, suffix) := splitSuffix (name.map Char.toLower)
      some ⟨type.map Char.toLower, subtype, suffix⟩
    else none
  | _ => none

/-- Whether a body of this type is JSON. -/
def isJson (m : MediaType) : Bool :=
  m.type == "application".toList &&
    (m.subtype == "json".toList || m.suffix == some "json".toList)

end MediaType

structure Request where
  method : String
  /-- The target as it was sent. -/
  target : List UInt8
  /-- The headers in order; names count in any case. -/
  headers : List (String × List UInt8)
  body : List UInt8

namespace Request

/-- The path of the target, which is empty if the target has none. -/
def path (r : Request) : List UInt8 := (Target.path? r.target).getD []

/-- The parts of a path between its slashes. -/
def splitPath (path : List UInt8) : List (List UInt8) := path.splitOn 47

/-- The first header with a name, which is given in lower case. -/
def header? (r : Request) (name : String) : Option (List UInt8) :=
  (r.headers.find? fun (key, _) => key.toLower == name).map (·.2)

/-- A header value as text, if it holds only visible ASCII characters, blanks and tabs. -/
def headerText? (r : Request) (name : String) : Option String :=
  (r.header? name).bind fun value =>
    if value.all fun b => b = 9 || (32 ≤ b && b < 127) then
      some (String.ofList (value.map fun b => Char.ofNat b.toNat))
    else none

/-- What a bearer token follows. -/
def bearer : List Char := "Bearer ".toList

/-- The bearer token, without blanks around it. -/
def token? (r : Request) : Option String :=
  (r.headerText? "authorization").bind fun text =>
    if bearer.isPrefixOf text.toList then
      some (String.ofList (Blank.trim (text.toList.drop bearer.length)))
    else none

/-- Whether the body is said to be JSON. -/
def hasJson (r : Request) : Bool :=
  ((r.headerText? "content-type").bind MediaType.parse?).any MediaType.isJson

end Request

end Vetting.Http
