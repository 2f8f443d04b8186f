import Mecmcp.Lib.Json

/-!
# Crates — the libraries the coordinator calls

`Crates` collects the functions of third-party crates that the coordinator's results depend on
(SHA-256, HMAC, the JSON printer and parser, the URL parser, the standard library's `Debug`
form of a string) with the laws the development uses.  Every definition that calls one of them
takes a `Crates` argument, so every theorem holds for all of them.

`Crates.sample` is one instance, small enough to evaluate: a rolling checksum in the place of
the hash, a compact printer, and a file that holds the document itself, as long as its compact text.
-/

namespace Mecmcp.Changeset

def utf8 (text : String) : List UInt8 := text.toUTF8.data.toList

@[simp] theorem utf8_append (a b : String) : utf8 (a ++ b) = utf8 a ++ utf8 b := by
  simp [utf8, String.toUTF8_eq_toByteArray, String.toByteArray_append]

theorem utf8_injective : Function.Injective utf8 := by
  intro a b h
  have hdata : a.toUTF8.data = b.toUTF8.data := Array.toList_inj.mp h
  exact String.toByteArray_inj.mp (ByteArray.ext hdata)

theorem utf8_ofList (cs : List Char) :
    utf8 (String.ofList cs) = cs.flatMap String.utf8EncodeChar := by
  simp [utf8, String.toUTF8_eq_toByteArray, String.toByteArray_ofList, List.utf8Encode]

/-- What the coordinator reads of a parsed URL. -/
structure Url where
  scheme : String
  host : Option String
  port : Option UInt16
  path : String

/-- `text` without the `/` characters at its end. -/
def trimEndSlashes (text : String) : String :=
  String.ofList (text.toList.reverse.dropWhile (· == '/')).reverse

def asciiLower (text : String) : String :=
  String.ofList (text.toList.map Char.toLower)

/-- The canonical text of an endpoint: scheme, lower-case host, an explicit port, and the path
without trailing slashes. -/
def Url.canonical (url : Url) (host : String) : String :=
  let base := url.scheme ++ "://" ++ asciiLower host
  let withPort := match url.port with
    | some port => base ++ ":" ++ toString port.toNat
    | none => base
  let path := trimEndSlashes url.path
  if path ≠ "" ∧ path ≠ "/" then withPort ++ path else withPort

/-- Functions of the crates the coordinator is linked with. -/
structure Crates where
  sha256 : List UInt8 → List UInt8
  sha256_length : ∀ input, (sha256 input).length = 32
  hmacSha256 : (key : List UInt8) → List UInt8 → List UInt8
  hmacSha256_length : ∀ key input, (hmacSha256 key input).length = 32
  /-- `serde_json::to_vec` on a document. -/
  toVec : Json → List UInt8
  /-- What a state file holds. -/
  Text : Type
  len : Text → ℕ
  /-- `serde_json::to_vec_pretty` on a document. -/
  toVecPretty : Json → Text
  /-- `serde_json::from_slice`, up to the document; `none` is a text that is not JSON, or one
  nested beyond the parser's limit. -/
  fromSlice : Text → Option Json
  jsonError : Text → String
  /-- What a float is after printing and best-effort parsing. -/
  reparse : UInt64 → UInt64
  /-- Parsing what was printed gives the document back, floats apart. -/
  fromSlice_eq : ∀ j j', fromSlice (toVecPretty j) = some j' → j' = j.mapFloat reparse
  /-- The parser accepts what was printed, to a nesting of 127. -/
  fromSlice_ok : ∀ j, j.depth ≤ 127 → j.mapFloat reparse = j → fromSlice (toVecPretty j) = some j
  /-- `url::Url::parse`. -/
  urlParse : String → Except String Url
  urlParse_canonical : ∀ text url host, urlParse text = .ok url → url.host = some host →
    ∃ url', urlParse (url.canonical host) = .ok url'
  /-- The `{:?}` form of a string. -/
  debugStr : String → String

/-! ### An instance -/

namespace Sample

/-- A rolling checksum of one byte, padded to the length of a digest. -/
def checksum (seed : ℕ) (input : List UInt8) : List UInt8 :=
  UInt8.ofNat (input.foldl (fun h b => (h * 31 + b.toNat + 1) % 256) seed) :: List.replicate 31 0

theorem length_checksum (seed : ℕ) (input : List UInt8) : (checksum seed input).length = 32 := by
  simp [checksum]

mutual
/-- Compact text of a document. -/
def compact : Json → List UInt8
  | .null => utf8 "null"
  | .bool b => utf8 (if b then "true" else "false")
  | .num (.posInt n) => utf8 (toString n.toNat)
  | .num (.negInt n) => utf8 (toString n.1.toInt)
  | .num (.float bits) => utf8 "0x" ++ utf8 (toString bits.toNat)
  | .str s => utf8 "\"" ++ utf8 s ++ utf8 "\""
  | .arr items => utf8 "[" ++ compactItems items ++ utf8 "]"
  | .obj fields => utf8 "\x7b" ++ compactFields fields ++ utf8 "\x7d"

def compactItems : List Json → List UInt8
  | [] => []
  | j :: js => compact j ++ utf8 "," ++ compactItems js

/-- The members of an object. -/
def compactFields : List (String × Json) → List UInt8
  | [] => []
  | (k, j) :: fs => utf8 "\"" ++ utf8 k ++ utf8 "\":" ++ compact j ++ utf8 "," ++ compactFields fs
end

/-- A URL parser that knows `https://host`. -/
def urlParse (text : String) : Except String Url :=
  if (utf8 "https://").isPrefixOf (utf8 text) then
    .ok ⟨"https", some (String.ofList (text.toList.drop 8)), none, "/"⟩
  else .error "relative URL without a base"

theorem urlParse_canonical (url : Url) (host : String) (hs : url.scheme = "https") :
    ∃ url', urlParse (url.canonical host) = .ok url' := by
  have hpre : ∃ rest, utf8 (url.canonical host) = utf8 ("https" ++ "://") ++ rest := by
    simp only [Url.canonical, hs]
    cases url.port <;> split <;> exact ⟨_, by simp only [utf8_append, List.append_assoc]; rfl⟩
  obtain ⟨rest, hrest⟩ := hpre
  have hscheme : utf8 "https://" = utf8 ("https" ++ "://") := by decide
  exact ⟨_, by rw [urlParse, if_pos (by rw [hrest, hscheme]; simp)]⟩

end Sample

open Sample in
/-- A small instance: it satisfies every law and evaluates. -/
def Crates.sample : Crates where
  sha256 := checksum 7
  sha256_length := length_checksum 7
  hmacSha256 key input := checksum (11 + key.length) (key ++ input)
  hmacSha256_length := fun _ _ => length_checksum _ _
  toVec := compact
  Text := Json
  len j := (compact j).length
  toVecPretty := id
  fromSlice j := if j.depth ≤ 127 then some j else none
  jsonError _ := "recursion limit exceeded"
  reparse := id
  fromSlice_eq := by
    intro j j' h
    have hj : j = j' := by
      simp only [id_eq, Option.ite_none_right_eq_some, Option.some.injEq] at h
      exact h.2
    rw [← hj, Json.mapFloat_id]
  fromSlice_ok := by
    intro j hd _
    simp [hd]
  urlParse := Sample.urlParse
  urlParse_canonical := by
    intro text url host h _
    have hs : url.scheme = "https" := by
      simp only [Sample.urlParse] at h
      split at h
      · rw [← Except.ok.inj h]
      · cases h
    exact Sample.urlParse_canonical url host hs
  debugStr s := "\"" ++ s ++ "\""

end Mecmcp.Changeset
