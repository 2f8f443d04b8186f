import Mecmcp.Lib.Text

/-!
# Denylist — secret names and secret shapes

`denylist.rs` and `shape.rs`: which field names carry a secret, and which values look like one
whatever they are called.
-/

namespace Mecmcp.Redact

/-! ### Names -/

/-- Lowercase, with everything but ASCII letters and digits dropped. -/
def normalize (text : Text) : Text := (text.filter isAsciiAlnum).map Char.toLower

/-- `DENYLISTED_KEYS`: matched anywhere in a normalized name. -/
def denylistedKeys : List String :=
  ["secret", "privatekey", "presharedkey", "psk", "passphrase", "xpassphrase", "xsecret", "phash",
   "community", "communities", "communitystring", "apikey", "token", "authenticationkey",
   "password", "sharedkey", "sharedsecret", "credential", "bindpw", "encryptionkey", "privkey",
   "authorization", "bearer", "cookie", "passwd", "pwd", "session", "sessionid", "sessiontoken",
   "sessionkey", "sessioncookie", "sessionsecret", "keystring", "messagedigestkey", "authkey",
   "keywrap", "partnerkey", "accountkey", "clientkey", "hmackey"]

/-- `DENYLISTED_EXACT_KEYS`: matched as the whole normalized name. -/
def denylistedExactKeys : List String := ["key"]

def isDenylistedKey (key : Text) : Bool :=
  let normalized := normalize key
  !normalized.isEmpty &&
    (denylistedExactKeys.any (fun term => normalized == term.toList) ||
      denylistedKeys.any fun term => containsSub term.toList normalized)

/-- A `keys` field is WEP key material beside `type: "wep"` or directly under `auth`. -/
def isWepKeysField (key : Text) (parentKey siblingType : Option Text) : Bool :=
  normalize key == "keys".toList &&
    (siblingType.any (fun t => normalize t == "wep".toList) ||
      parentKey.any fun p => normalize p == "auth".toList)

/-! ### Shapes -/

/-- `$<id>$<content>` with a short alphanumeric id. -/
def isCryptHash (value : Text) : Bool :=
  match value with
  | '$' :: rest =>
    match findChar (· == '$') rest with
    | none => false
    | some second =>
      let id := rest.take second
      !id.isEmpty && id.length ≤ 8 && id.all isAsciiAlnum && !(rest.drop (second + 1)).isEmpty
  | _ => false

def containsPanAqSuffix (value : Text) : Bool := containsSub "-AQ==".toList value

/-- `ENC` followed by something that is not alphanumeric. -/
def isEncMarker (value : Text) : Bool :=
  match value.dropWhile isWhitespace with
  | 'E' :: 'N' :: 'C' :: c :: _ => !isAsciiAlnum c
  | _ => false

def containsPemMarker (value : Text) : Bool := containsSub "-----BEGIN ".toList value

def looksLikeSecretValue (value : Text) : Bool :=
  isCryptHash value || containsPanAqSuffix value || isEncMarker value || containsPemMarker value

def isPemBegin (trimmed : Text) : Bool :=
  "-----BEGIN ".toList.isPrefixOf trimmed && "-----".toList.isSuffixOf trimmed

def isPemEnd (trimmed : Text) : Bool :=
  "-----END ".toList.isPrefixOf trimmed && "-----".toList.isSuffixOf trimmed

end Mecmcp.Redact
