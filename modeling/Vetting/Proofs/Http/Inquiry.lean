import Vetting.Http.Router
import Vetting.Proofs.Token

/-!
Requests for a job. A client names a job by a type and any text (`Request.Inquires`). Whatever text that is,
and whoever the client is, there is such a request (`inquires_inquiry`): the text stands in the path with every
byte of it escaped, and the token is the one that is issued to the client.
-/
namespace Vetting

open Json

namespace Percent

/-- Bytes with each of them escaped. -/
def escape (bytes : List UInt8) : List UInt8 := bytes.flatMap fun b => 37 :: (Hex.byte b).map byteOf

private theorem digit?_digit : ∀ n : Fin 16, digit? (byteOf (Hex.digit n)) = some n.val := by decide

/-- Escaped bytes are read back. -/
@[simp] theorem decode_escape (bytes : List UInt8) : decode (escape bytes) = bytes := by
  induction bytes with
  | nil => rfl
  | cons b bytes ih =>
    have high : b.toNat / 16 < 16 := by have := b.toNat_lt; omega
    have low : b.toNat % 16 < 16 := Nat.mod_lt _ (by decide)
    have whole : b.toNat / 16 * 16 + b.toNat % 16 = b.toNat := by omega
    have escaped : escape (b :: bytes) =
        37 :: byteOf (Hex.digit (b.toNat / 16)) :: byteOf (Hex.digit (b.toNat % 16)) :: escape bytes := rfl
    rw [escaped, decode, digit?_digit ⟨_, high⟩, digit?_digit ⟨_, low⟩, ih]
    simp [whole]

@[simp] theorem length_escape (bytes : List UInt8) : (escape bytes).length = 3 * bytes.length := by
  induction bytes with
  | nil => rfl
  | cons b bytes ih =>
    rw [escape, List.flatMap_cons, List.length_append, ← escape, ih]
    simp [Hex.byte]
    omega

/-- The bytes that escaping leaves stand in a path, and none of them parts it. -/
theorem forall_mem_escape (bytes : List UInt8) :
    ∀ b ∈ escape bytes, Http.Target.isOfPath b = true ∧ b ≠ 47 ∧ b ≠ 63 ∧ b ≠ 35 := by
  have digits : ∀ n : Fin 16, Http.Target.isOfPath (byteOf (Hex.digit n)) = true ∧ byteOf (Hex.digit n) ≠ 47 ∧
      byteOf (Hex.digit n) ≠ 63 ∧ byteOf (Hex.digit n) ≠ 35 := by decide
  intro b mem
  obtain ⟨a, _, mem⟩ := List.mem_flatMap.1 mem
  have high : a.toNat / 16 < 16 := by have := a.toNat_lt; omega
  have low : a.toNat % 16 < 16 := Nat.mod_lt _ (by decide)
  simp only [Hex.byte, List.map_cons, List.map_nil, List.mem_cons, List.not_mem_nil, or_false] at mem
  rcases mem with rfl | rfl | rfl
  · decide
  · exact digits ⟨_, high⟩
  · exact digits ⟨_, low⟩

end Percent

namespace Http

/-- Whether a client asks, by a request, for the job of a type that a text names. -/
structure Request.Inquires (context : Context) (r : Request) (client : Int) (type : JobType) (text : String) :
    Prop where
  get : r.method = "GET"
  path : ∃ typePart idPart typeName, Endpoint.ofPath? r.path = some (.result typePart idPart) ∧
    pathText "job_type" typePart = .ok typeName ∧ JobType.ofName? typeName = some type ∧
    pathText "job_id" idPart = .ok text
  entered : authenticate context r = .ok client

/-- What the path of every inquiry starts with. -/
def resultRoot : List UInt8 := ascii "/api/v1/result/"

/-- The path to the job of a type that a text names. -/
def resultPath (type : JobType) (text : String) : List UInt8 :=
  resultRoot ++ ascii type.name ++ 47 :: Percent.escape (Utf8.encode text)

variable {type : JobType} {text : String}

private theorem resultPath_eq : resultPath type text =
    [47].intercalate [[], ascii "api", ascii "v1", ascii "result", ascii type.name,
      Percent.escape (Utf8.encode text)] := by
  simp only [List.intercalate, List.intersperse, List.flatten_cons, List.flatten_nil, List.append_nil]
  cases type <;> rfl

private theorem splitPath_resultPath : Request.splitPath (resultPath type text) =
    [[], ascii "api", ascii "v1", ascii "result", ascii type.name, Percent.escape (Utf8.encode text)] := by
  rw [Request.splitPath, resultPath_eq]
  apply List.splitOn_intercalate
  · simp only [List.mem_cons, List.not_mem_nil, or_false, forall_eq_or_imp, forall_eq]
    refine ⟨by decide, by decide, by decide, by decide, ?_, ?_⟩
    · cases type <;> decide
    · intro mem
      exact (Percent.forall_mem_escape _ _ mem).2.1 rfl
  · exact List.cons_ne_nil _ _

private theorem resultPath_ne {fixed : List UInt8} (other : ¬ resultRoot <+: fixed) :
    resultPath type text ≠ fixed := by
  rintro rfl
  rw [resultPath, List.append_assoc] at other
  exact other (List.prefix_append _ _)

/-- The path leads to the results, with both parts as they are written. -/
theorem ofPath?_resultPath (filled : text ≠ "") : Endpoint.ofPath? (resultPath type text) =
    some (.result (ascii type.name) (Percent.escape (Utf8.encode text))) := by
  have named : ascii type.name ≠ [] := by cases type <;> decide
  have spelled : Percent.escape (Utf8.encode text) ≠ [] := by
    intro nothing
    have back := Percent.decode_escape (Utf8.encode text)
    rw [nothing] at back
    exact filled (Utf8.encode_injective back.symm)
  simp only [Endpoint.ofPath?, splitPath_resultPath,
    resultPath_ne (show ¬ resultRoot <+: ascii "/health" by decide),
    resultPath_ne (show ¬ resultRoot <+: ascii "/metrics" by decide),
    resultPath_ne (show ¬ resultRoot <+: ascii "/api/v1/face-match-async" by decide),
    resultPath_ne (show ¬ resultRoot <+: ascii "/api/v1/ocr-async" by decide), if_false]
  exact if_pos ⟨by decide, named, spelled⟩

@[simp] theorem pathText_escape (name text : String) :
    pathText name (Percent.escape (Utf8.encode text)) = .ok text := by
  have read : Utf8.read (Utf8.encode text) = .ok text := Utf8.read_encode text
  rw [pathText, Percent.decode_escape, Utf8.decode, read]
  rfl

@[simp] theorem pathText_name (type : JobType) : pathText "job_type" (ascii type.name) = .ok type.name := by
  have read : Utf8.decode (Percent.decode (ascii type.name)) = some type.name := by
    cases type <;> decide +kernel
  rw [pathText, read]

private theorem forall_mem_resultPath :
    ∀ b ∈ resultPath type text, Target.isOfPath b = true ∧ b ≠ 63 ∧ b ≠ 35 := by
  have root : resultRoot.all (fun b => Target.isOfPath b && b != 63 && b != 35) = true := by decide
  have name : (ascii type.name).all (fun b => Target.isOfPath b && b != 63 && b != 35) = true := by
    cases type <;> decide
  intro b mem
  simp only [resultPath, List.mem_append, List.mem_cons] at mem
  rcases mem with (mem | mem) | rfl | mem
  · simpa [and_assoc] using List.all_eq_true.1 root b mem
  · simpa [and_assoc] using List.all_eq_true.1 name b mem
  · decide
  · obtain ⟨ofPath, _, others⟩ := Percent.forall_mem_escape _ b mem
    exact ⟨ofPath, others⟩

/-- The path is that of a target, unless it is too long. -/
theorem path?_resultPath (short : (Utf8.encode text).length ≤ 21000) :
    Target.path? (resultPath type text) = some (resultPath type text) := by
  have all : ∀ b ∈ resultPath type text, Target.isOfPath b = true ∧ b ≠ 63 ∧ b ≠ 35 := forall_mem_resultPath
  have whole : (resultPath type text).takeWhile (fun b => b ≠ 63 && b ≠ 35) = resultPath type text := by
    rw [List.takeWhile_eq_self_iff]
    intro b mem
    simp [all b mem]
  have ofPath : (resultPath type text).all Target.isOfPath = true :=
    List.all_eq_true.2 fun b mem => (all b mem).1
  have length : (resultPath type text).length ≤ Target.longest := by
    have root : resultRoot.length = 15 := by decide
    have name : (ascii type.name).length ≤ 10 := by cases type <;> decide
    simp only [resultPath, List.length_append, List.length_cons, Percent.length_escape, root, Target.longest]
    omega
  obtain ⟨rest, starts⟩ : ∃ rest, resultPath type text = 47 :: rest := by
    cases type <;> exact ⟨_, rfl⟩
  have pathOf : Target.pathOf? (resultPath type text) = some (resultPath type text) := by
    simp only [Target.pathOf?, whole, ofPath, List.drop_length]
    rw [starts]
    rfl
  rw [starts] at pathOf length ⊢
  unfold Target.path?
  rw [if_neg (by omega)]
  exact pathOf

/-- Whether a text holds nothing but ASCII that is printed, and no blanks. -/
def Printed (text : List Char) : Prop := ∀ c ∈ text, 32 < c.toNat ∧ c.toNat < 127

private theorem printed_encode (bytes : List UInt8) : Printed (Base64Url.encode bytes) :=
  Base64Url.forall_mem_encode (fun n small =>
    ⟨(Base64Url.symbol_printed ⟨n, small⟩).1, (Base64Url.symbol_printed ⟨n, small⟩).2.1⟩) bytes

private theorem Printed.parted {front back : List Char} (printed : Printed front) (also : Printed back) :
    Printed (front ++ '.' :: back) := by
  intro c mem
  simp only [List.mem_append, List.mem_cons] at mem
  rcases mem with mem | rfl | mem
  · exact printed c mem
  · decide
  · exact also c mem

private theorem printed_issue (secret : List UInt8) (client : Int) (expiry : Nat) :
    Printed (Token.issue secret client expiry).toList := by
  rw [Token.issue, String.toList_ofList]
  exact ((printed_encode _).parted (printed_encode _)).parted (printed_encode _)

/-- A text without blanks is not trimmed. -/
theorem Printed.trim {text : List Char} (printed : Printed text) : Blank.trim text = text := by
  have solid : ∀ c ∈ text, Blank.isBlank c = false := by
    intro c mem
    have bounds := printed c mem
    simp only [Blank.isBlank, Bool.or_eq_false_iff, Bool.and_eq_false_iff, beq_eq_false_iff_ne,
      decide_eq_false_iff_not]
    omega
  have kept : ∀ chars : List Char, (∀ c ∈ chars, Blank.isBlank c = false) → Blank.skip chars = chars := by
    intro chars all
    cases chars with
    | nil => rfl
    | cons c chars => exact Blank.skip_cons (all c List.mem_cons_self) chars
  rw [Blank.trim, kept text solid, kept text.reverse, List.reverse_reverse]
  intro c mem
  exact solid c (List.mem_reverse.1 mem)

/-- The value of a header that bears a token. -/
def bearing (token : String) : List UInt8 := (Request.bearer ++ token.toList).map byteOf

private theorem token?_bearing {token : String} {r : Request}
    (headers : r.headers = [("authorization", bearing token)])
    (printed : Printed token.toList) : r.token? = some token := by
  have all : ∀ c ∈ Request.bearer ++ token.toList, 32 ≤ c.toNat ∧ c.toNat < 127 := by
    intro c mem
    rcases List.mem_append.1 mem with mem | mem
    · have lead : Request.bearer.all (fun c => decide (32 ≤ c.toNat) && decide (c.toNat < 127)) = true := by decide
      simpa using List.all_eq_true.1 lead c mem
    · have bounds := printed c mem
      omega
  have value : ∀ c ∈ Request.bearer ++ token.toList, (byteOf c).toNat = c.toNat := by
    intro c mem
    have bounds := all c mem
    rw [byteOf, UInt8.toNat_ofNat', Nat.mod_eq_of_lt (by omega)]
  have visible : (bearing token).all (fun b => b = 9 || (32 ≤ b && b < 127)) = true := by
    rw [List.all_eq_true]
    intro b mem
    obtain ⟨c, also, rfl⟩ := List.mem_map.1 mem
    have bounds := all c also
    have same := value c also
    simp only [Bool.or_eq_true, Bool.and_eq_true, decide_eq_true_eq, UInt8.le_iff_toNat_le, UInt8.lt_iff_toNat_lt,
      UInt8.reduceToNat]
    omega
  have back : (bearing token).map (fun b => Char.ofNat b.toNat) = Request.bearer ++ token.toList := by
    rw [bearing, List.map_map]
    refine (List.map_congr_left ?_).trans (List.map_id _)
    intro c mem
    simp only [Function.comp, value c mem, Char.ofNat_toNat, id]
  have text : r.headerText? "authorization" = some (String.ofList (Request.bearer ++ token.toList)) := by
    have found : r.header? "authorization" = some (bearing token) := by
      have lower : ("authorization".toLower == "authorization") = true := by decide +kernel
      simp only [Request.header?, headers, List.find?, lower, Option.map_some]
    rw [Request.headerText?, found, Option.bind_some, if_pos visible, back]
  have starts : Request.bearer.isPrefixOf (Request.bearer ++ token.toList) = true :=
    List.isPrefixOf_iff_prefix.2 (List.prefix_append _ _)
  rw [Request.token?, text, Option.bind_some, String.toList_ofList, if_pos starts, List.drop_left, printed.trim,
    String.ofList_toList]

/-- A client's request for the job of a type that a text names, with a token that lasts until a second. -/
def inquiry (secret : List UInt8) (client : Int) (expiry : Nat) (type : JobType) (text : String) : Request where
  method := "GET"
  target := resultPath type text
  headers := [("authorization", bearing (Token.issue secret client expiry))]
  body := []

/-- Any client can ask for any text, if its token lasts and the text is not so long that no target holds it. -/
theorem inquires_inquiry {context : Context} {client : Int} {expiry : Nat} (word : IsInt64 client)
    (fits : expiry ≤ Decimal.maxNat64) (current : context.now ≤ expiry + Token.leeway) (filled : text ≠ "")
    (short : (Utf8.encode text).length ≤ 21000) :
    (inquiry context.secret client expiry type text).Inquires context client type text := by
  have path : (inquiry context.secret client expiry type text).path = resultPath type text := by
    simp only [Request.path, inquiry, path?_resultPath short, Option.getD_some]
  refine ⟨rfl, ⟨_, _, type.name, ?_, pathText_name type, ?_, pathText_escape _ _⟩, ?_⟩
  · rw [path, ofPath?_resultPath filled]
  · cases type <;> decide
  · rw [authenticate, token?_bearing rfl (printed_issue _ _ _)]
    exact Token.verify_issue word fits current

end Http

end Vetting
