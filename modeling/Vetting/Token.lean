import Vetting.Digest
import Vetting.Json.Record
import Vetting.Json.Tree
import Vetting.Text

/-!
Client tokens: a header, claims and a signature in unpadded base 64, with points between them. A
token is good if its header names the one algorithm, its signature is that of the text before it,
it has not expired, it is meant for nobody in particular, and its subject is a client id. A header may show
a public key, an object that tells its kind and what that kind needs; only its form is looked at. Main
definitions: `Key.isKey`, `Token.verify` and `Token.issue`.
-/
namespace Vetting.Token.Key

open Json

/-- A condition on the value of a member. -/
abbrev Rule := String × (Tree → Bool)

def isText : Tree → Bool
  | .text _ => true
  | _ => false

def areTexts : Tree → Bool
  | .list items => items.all isText
  | _ => false

/-- The name that a value is: a string, or the only key of an object that maps it to `null`. -/
def name? : Tree → Option String
  | .text name => some name
  | .object [(name, .null)] => some name
  | _ => none

def isName (t : Tree) : Bool := (name? t).isSome

def isOneOf (names : List String) (t : Tree) : Bool := (name? t).any names.contains

/-- The notes that a key may have; each may be `null`. -/
def notes : List Rule :=
  [("use", isText), ("key_ops", areTexts), ("alg", isName), ("kid", isText), ("x5u", isText),
    ("x5c", areTexts), ("x5t", isText), ("x5t#S256", isText)]

/-- The member that tells the kind of a key. -/
def kind (name : String) : Rule := ("kty", isOneOf [name])

/-- The member that tells the curve that a key lies on. -/
def curve : Rule := ("crv", isOneOf ["P-256", "P-384", "P-521", "Ed25519"])

/-- What each kind of key needs. -/
def kinds : List (List Rule) :=
  [[kind "EC", curve, ("x", isText), ("y", isText)],
    [kind "RSA", ("n", isText), ("e", isText)],
    [kind "oct", ("k", isText)],
    [kind "OKP", curve, ("x", isText)]]

/-- The values of the members with a name. -/
def values (members : List (String × Tree)) (name : String) : List Tree :=
  (members.filter fun member => member.1 == name).map Prod.snd

/-- Whether a note is missing or comes once and is good. -/
def mayHave (members : List (String × Tree)) (rule : Rule) : Bool :=
  match values members rule.1 with
  | [] => true
  | [.null] => true
  | [t] => rule.2 t
  | _ => false

/-- Whether a member comes once and is good. -/
def has (members : List (String × Tree)) (rule : Rule) : Bool :=
  match values members rule.1 with
  | [t] => rule.2 t
  | _ => false

/-- Whether a value has the form of a key: all its notes are good, and it has what some kind needs. -/
def isKey : Tree → Bool
  | .object members => notes.all (mayHave members) && kinds.any fun rules => rules.all (has members)
  | _ => false

end Vetting.Token.Key

namespace Vetting

open Json

namespace Token

/-- Why a token is refused before its subject is looked at. -/
inductive Refusal
  | notThreeParts
  | base64
  | json
  | algorithm
  | signature
  | expired
  | audience
  deriving DecidableEq, Repr

/-- The word for a refusal. -/
def Refusal.name : Refusal → String
  | .notThreeParts => "InvalidToken"
  | .base64 => "Base64"
  | .json => "Json"
  | .algorithm => "InvalidAlgorithm"
  | .signature => "InvalidSignature"
  | .expired => "ExpiredSignature"
  | .audience => "InvalidAudience"

end Token

/-- Why a caller is not let in. -/
inductive AuthError
  | missingToken
  | invalidToken (refusal : Token.Refusal)
  | invalidSubject (subject : String)
  deriving DecidableEq, Repr

/-- The wording of an error. -/
def AuthError.message : AuthError → String
  | .missingToken => "missing bearer token"
  | .invalidToken refusal => "invalid token: " ++ refusal.name
  | .invalidSubject subject => "token subject " ++ Quoted.quote subject ++ " is not a client id"

namespace Token

/-- The algorithms that a header may name. -/
def algorithms : List String :=
  ["HS256", "HS384", "HS512", "ES256", "ES384", "RS256", "RS384", "RS512", "PS256", "PS384",
    "PS512", "EdDSA"]

/-- The algorithm that tokens are signed with. -/
def algorithm : String := "HS256"

/-- A value that is kept if it has the form of a key. -/
def keyCodec : Codec Tree :=
  let check (t : Tree) : Except Cause Tree :=
    if Key.isKey t then .ok t else .error (.noAlternative "Key")
  { read nesting s :=
      match tree nesting s with
      | .error fault => .error fault
      | .ok (t, rest) => (check t).map (·, rest) |>.mapError (Fault.before · rest)
    ofTree := check
    toTree t := t }

/-- The members of a header that have a meaning. -/
def headerSchema : Schema :=
  let optionalText (name : String) : Field := ⟨name, Option String, .optional .text⟩
  let optionalTexts (name : String) : Field := ⟨name, Option (List String), .optional (.list .text)⟩
  [⟨"alg", String, .choice (algorithms.map fun name => (name, name)) id⟩, optionalText "typ",
    optionalText "cty", optionalText "jku", ⟨"jwk", Option Tree, .optional keyCodec⟩,
    optionalText "kid", optionalText "x5u", optionalTexts "x5c", optionalText "x5t",
    optionalText "x5t#S256", optionalTexts "crit", optionalText "enc", optionalText "zip",
    optionalText "url", optionalText "nonce"]

/-- Whether a member without a meaning is a string. -/
def isPlainMember : String × Tree → Bool
  | (_, .text _) => true
  | (name, _) => headerSchema.any fun field => field.name == name

/-- The algorithm of a header, which is an object; members without a meaning must be strings. -/
def headerAlgorithm? (bytes : List UInt8) : Option String :=
  match readAll (tree maxNesting) bytes with
  | .ok (.object members) =>
    if members.all isPlainMember then
      match Record.ofTree "Header" headerSchema (.object members) with
      | .ok record => some record.1
      | .error _ => none
    else none
  | _ => none

end Token

/-- What a token says of its bearer: who it is, and the second at which the token expires. -/
structure Claims where
  subject : String
  expiry : Nat
  deriving DecidableEq, Repr

namespace Claims

def schema : Schema := [⟨"sub", String, .text⟩, ⟨"exp", Nat, .nat64⟩]

/-- The form of claims in JSON. -/
def codec : Codec Claims :=
  (Codec.record "Claims" schema).map (fun (subject, expiry, ()) => ⟨subject, expiry⟩)
    fun claims => (claims.subject, claims.expiry, ())

end Claims

namespace Token

/-- Whom a token is meant for: one name or several. -/
def audienceCodec : Codec (String ⊕ List String) := .either "Audience" .text (.list .text)

/-- A point in time. A list or an object is entered before it is found to be none. -/
def momentCodec : Codec Number where
  read _ s :=
    match blanks s with
    | 91 :: rest => .error (.before (.wrongType .list "a number") (pastList rest))
    | 123 :: rest => .error (.before (.wrongType .object "a number") (pastObject rest))
    | [] => .error (.on (.ended .value) [])
    | b :: rest =>
      if startsNumber b then number (b :: rest) else .error (mismatch "a number" (b :: rest))
  ofTree
    | .number n => .ok n
    | t => .error (.wrongType t.found "a number")
  toTree := .number

/-- The claims that restrict a token, beside the expiry. One that does not fit restricts nothing,
but the text has to go on where the attempt to read it stopped. -/
def restrictionSchema : Schema :=
  let names : Codec (Option (Option (String ⊕ List String))) := .attempt (.optional audienceCodec)
  [⟨"aud", _, names⟩, ⟨"iss", _, names⟩, ⟨"nbf", _, .attempt momentCodec⟩]

/-- Whether the claims, which must be an object, name an audience. -/
def namesAudience? (payload : List UInt8) : Option Bool :=
  match blanks payload with
  | 123 :: rest =>
    match readAll (Record.readObject restrictionSchema (maxNesting - 1)) rest with
    | .ok (audience, _) => some (audience.any Option.isSome)
    | .error _ => none
  | _ => none

/-- Splits a text at its last point. -/
def splitLast? (text : List Char) : Option (List Char × List Char) :=
  let last := (text.reverse.takeWhile (· ≠ '.')).reverse
  match (text.take (text.length - last.length)).getLast? with
  | some _ => some (text.take (text.length - last.length - 1), last)
  | none => none

/-- The seconds by which a token may be late. -/
def leeway : Nat := 60

/-- The claims of a token that is good at the given second. -/
def claims (secret : List UInt8) (now : Nat) (token : String) : Except Refusal Claims := do
  let some (signed, signature) := splitLast? token.toList | throw .notThreeParts
  let some (header, payload) := splitLast? signed | throw .notThreeParts
  let some header := Base64Url.decode header | throw .base64
  let some named := headerAlgorithm? header | throw .json
  if named ≠ algorithm then throw .algorithm
  let some signature := Base64Url.decode signature | throw .base64
  if signature ≠ Hmac.code secret (Utf8.encode (String.ofList signed)) then throw .signature
  let some payload := Base64Url.decode payload | throw .base64
  let .ok claims := Claims.codec.decode payload | throw .json
  let some hasAudience := namesAudience? payload | throw .json
  if claims.expiry + leeway < now then throw .expired
  if hasAudience then throw .audience
  return claims

/-- The client that a token was issued to. -/
def verify (secret : List UInt8) (now : Nat) (token : String) : Except AuthError Int :=
  match claims secret now token with
  | .error refusal => .error (.invalidToken refusal)
  | .ok claims =>
    match Decimal.int64? claims.subject.toList with
    | .ok client => .ok client
    | .error _ => .error (.invalidSubject claims.subject)

/-- The token of a client that expires at the given second. -/
def issue (secret : List UInt8) (client : Int) (expiry : Nat) : String :=
  let header : Tree := .object [("typ", .text "JWT"), ("alg", .text algorithm)]
  let part (bytes : List UInt8) : List Char := Base64Url.encode bytes
  let signed := part header.write ++ '.' :: part (Claims.codec.write ⟨toString client, expiry⟩)
  let signature := Hmac.code secret (Utf8.encode (String.ofList signed))
  String.ofList (signed ++ '.' :: part signature)

end Token

end Vetting
