import Codel00p.Lib.Table
import Codel00p.Lib.Text
import Mathlib.Algebra.Order.BigOperators.Group.List
import Mathlib.Data.String.Basic

/-! Signing of Bedrock requests, against the canonical request of AWS Signature Version 4. -/

namespace Codel00p.BedrockConverse

/-- A byte that stands for itself in a URI. -/
def unreserved (byte : UInt8) : Bool :=
  let c := Char.ofNat byte.toNat
  c.isAlphanum || c = '-' || c = '_' || c = '.' || c = '~'

def percentByte (byte : UInt8) : List Char :=
  let digit := fun value => Char.ofNat (if value < 10 then 48 + value else 55 + value)
  if unreserved byte then [Char.ofNat byte.toNat] else ['%', digit (byte.toNat / 16), digit (byte.toNat % 16)]

def uriEncode (text : List Char) : List Char := (text.flatMap String.utf8EncodeChar).flatMap percentByte

def bedrockBaseUrl (baseUrl region : String) : String :=
  let trimmed := String.ofList (baseUrl.toList.reverse.dropWhile (· = '/')).reverse
  if trimmed = "https://bedrock-runtime.us-east-1.amazonaws.com" ∧ region ≠ "us-east-1" then
    "https://bedrock-runtime." ++ region ++ ".amazonaws.com"
  else trimmed

/-- The address of a call, which ends in another word if the answer is streamed. -/
def converseUrl (streaming : Bool) (baseUrl region model : String) : String :=
  bedrockBaseUrl baseUrl region ++ "/model/" ++ String.ofList (uriEncode model.toList) ++
    if streaming then "/converse-stream" else "/converse"

/-- The parts of an address that was parsed. -/
structure Url where
  host : String
  port : Option Nat := none
  path : String
  query : Option String := none

def canonicalHost (url : Url) : String :=
  match url.port with
  | some port => url.host ++ ":" ++ toString port
  | none => url.host

section

variable (sha256Hex : List UInt8 → String) (url : Url) (body : List UInt8) (amzDate : String)
  (sessionToken : Option String)

/-- The headers that are signed and sent. -/
def signedHeaders : List (String × String) :=
  [("content-type", "application/json"), ("host", canonicalHost url), ("x-amz-content-sha256", sha256Hex body),
    ("x-amz-date", amzDate)] ++ (sessionToken.map fun token => ("x-amz-security-token", token)).toList

/-- Headers in the order of their names, one in a line. -/
def headerLines (value : String → String) (headers : List (String × String)) : String :=
  String.join ((sortOn Prod.fst headers).map fun header => header.1 ++ ":" ++ value header.2 ++ "\n")

def signedHeaderNames (headers : List (String × String)) : String :=
  ";".intercalate ((sortOn Prod.fst headers).map Prod.fst)

/-- The canonical request that is signed. -/
def canonicalRequest : String :=
  let headers := signedHeaders sha256Hex url body amzDate sessionToken
  "POST\n" ++ url.path ++ "\n\n" ++ headerLines id headers ++ signedHeaderNames headers ++ "\n" ++ sha256Hex body

/-- The path with each segment encoded once more, and without empty segments. -/
def canonicalUri (behindSlash : Bool) : List Char → List Char
  | [] => []
  | c :: rest =>
    if c = '/' then (if behindSlash then [] else [c]) ++ canonicalUri true rest
    else uriEncode [c] ++ canonicalUri false rest

/-- A value without white space at its ends and with single blanks inside. -/
def trimAll (value : String) : String := " ".intercalate (splitPieces (· = ' ') value)

/-- The canonical request that the specification defines for the request that is sent. -/
def sigV4CanonicalRequest : String :=
  let headers := signedHeaders sha256Hex url body amzDate sessionToken
  "POST" ++ "\n" ++ String.ofList (canonicalUri false url.path.toList) ++ "\n" ++ url.query.getD "" ++ "\n" ++
    headerLines trimAll headers ++ "\n" ++ signedHeaderNames headers ++ "\n" ++ sha256Hex body

end

/-- The line ends of a text. -/
def lineEnds (text : String) : Nat := text.toList.count '\n'

@[simp] theorem lineEnds_append (text more : String) : lineEnds (text ++ more) = lineEnds text + lineEnds more := by
  simp [lineEnds]

theorem lineEnds_headerLines (value : String → String) (headers : List (String × String)) :
    lineEnds (headerLines value headers) =
      (headers.map fun header => lineEnds header.1 + lineEnds (value header.2) + 1).sum := by
  have join : ∀ texts : List String, lineEnds (String.join texts) = (texts.map lineEnds).sum := by
    intro texts
    induction texts with
    | nil => rfl
    | cons text texts ih => rw [String.join_cons, lineEnds_append, ih, List.map_cons, List.sum_cons]
  have each : ∀ header : String × String, lineEnds (header.1 ++ ":" ++ value header.2 ++ "\n") =
      lineEnds header.1 + lineEnds (value header.2) + 1 := by
    intro header
    simp only [lineEnds_append]
    rfl
  rw [headerLines, join, List.map_map]
  simp only [Function.comp_def, each]
  exact ((sortOn_perm Prod.fst headers).map _).sum_nat

section

variable {sha256Hex : List UInt8 → String} {url : Url} {body : List UInt8} {amzDate : String}
  {sessionToken : Option String}

/-- The specification has a line more than what is signed: an empty one behind the headers. -/
theorem lineEnds_lt (path : lineEnds url.path = 0)
    (values : ∀ header ∈ signedHeaders sha256Hex url body amzDate sessionToken, lineEnds header.2 = 0) :
    lineEnds (canonicalRequest sha256Hex url body amzDate sessionToken)
      < lineEnds (sigV4CanonicalRequest sha256Hex url body amzDate sessionToken) := by
  have fewer : ((signedHeaders sha256Hex url body amzDate sessionToken).map fun header =>
      lineEnds header.1 + lineEnds (id header.2) + 1).sum ≤ ((signedHeaders sha256Hex url body amzDate sessionToken).map
        fun header => lineEnds header.1 + lineEnds (trimAll header.2) + 1).sum := by
    refine List.sum_le_sum fun header member => ?_
    have none := values header member
    simp only [id]
    omega
  have ends : lineEnds "POST\n" = 1 ∧ lineEnds "\n\n" = 2 ∧ lineEnds "\n" = 1 := by decide
  simp only [canonicalRequest, sigV4CanonicalRequest, lineEnds_append, lineEnds_headerLines, path, ends]
  omega

end

/-- The canonical request that is signed for a call is never the one of the specification. -/
theorem signed_never_canonical (parse : String → Option Url) (streaming : Bool) (baseUrl region model : String)
    (sha256Hex : List UInt8 → String) (body : List UInt8) (amzDate : String) (sessionToken : Option String) {url : Url}
    (_ : parse (converseUrl streaming baseUrl region model) = some url) (path : lineEnds url.path = 0)
    (values : ∀ header ∈ signedHeaders sha256Hex url body amzDate sessionToken, lineEnds header.2 = 0) :
    canonicalRequest sha256Hex url body amzDate sessionToken
      ≠ sigV4CanonicalRequest sha256Hex url body amzDate sessionToken :=
  fun same => Nat.lt_irrefl _ (same ▸ lineEnds_lt path values)

/-- The address of a call of a model whose id has a character that is encoded. -/
def novaUrl : Url := { host := "bedrock-runtime.us-east-1.amazonaws.com", path := "/model/nova%3A0/converse" }

theorem nova_never_canonical : canonicalRequest (fun _ => "00") novaUrl [] "20260101T000000Z" (some "token")
    ≠ sigV4CanonicalRequest (fun _ => "00") novaUrl [] "20260101T000000Z" (some "token") :=
  signed_never_canonical (fun _ => some novaUrl) false "https://bedrock-runtime.us-east-1.amazonaws.com" "us-east-1"
    "nova:0" (fun _ => "00") [] "20260101T000000Z" (some "token") rfl (by decide) (by decide)

/-- The empty line behind the headers is missing. -/
theorem empty_line_missing : canonicalRequest (fun _ => "00") novaUrl [] "20260101T000000Z" none
    ≠ sigV4CanonicalRequest (fun _ => "00") novaUrl [] "20260101T000000Z" none := by
  intro same
  have fewer : lineEnds (canonicalRequest (fun _ => "00") novaUrl [] "20260101T000000Z" none) < _ :=
    lineEnds_lt (by decide) (by decide)
  rw [same] at fewer
  exact Nat.lt_irrefl _ fewer

end Codel00p.BedrockConverse
