import Mecmcp.Lib.Text
import Mecmcp.Lib.Tokens

/-!
# KnownHosts — marker lines of `known_hosts`

`check_known_hosts_markers` looks for `@revoked` and `@cert-authority` lines.  The check of a revoked
key is the library's; the host field of a certificate authority is matched here, by equality only.
What OpenSSH makes of such a field is `opensshMatches`.
-/

namespace Mecmcp.Scp

open List

open Tokens

/-- The library's part: the check of one line against host and key, and the hash of a hashed host. -/
structure HostLibrary where
  matchesHostAndKey : Text → Option Bool
  decodeSalt : Text → Option (List UInt8)
  hmacSha1 : List UInt8 → Text → Text

inductive MarkerError where
  | unreadable (line : ℕ)
  | library
  | salt
  | revoked (line : ℕ)
  | certAuthority (line : ℕ)

variable (lib : HostLibrary) (host : Text) (port : ℕ)

/-- The name a host goes by: with its port, unless that is 22. -/
def target : Text :=
  if port = 22 then host else '[' :: (host ++ ("]:".toList ++ (toString port).toList))

/-- `|1|salt|hash`. -/
def hashedHost (field : Text) : Option (List Text) :=
  if "|1|".toList.isPrefixOf field then some ((field.drop 3).splitOn '|') else none

/-- `line_matches_host`; `none` is a salt that does not decode. -/
def lineMatchesHost (line : Text) : Option Bool :=
  match words isWhitespace line with
  | field :: _ :: _ :: _ =>
    match hashedHost field with
    | some [salt, hash] =>
      (lib.decodeSalt salt).map fun salt => lib.hmacSha1 salt (target host port) == hash
    | some _ => some false
    | none =>
      if field.contains ',' then
        some ((field.splitOn ',').any fun h => h == target host port || h == host)
      else if field.contains '*' || field.contains '?' then some false
      else some (field == target host port || field == host)
  | _ => some false

def markerOf (line : Text) : Option (Text × Text) :=
  match trimText line with
  | '@' :: afterMarker =>
    (findChar isWhitespace afterMarker).map fun space =>
      (afterMarker.take space, (afterMarker.drop space).dropWhile isWhitespace)
  | _ => none

def checkLine (number : ℕ) (line : Text) : Except MarkerError Unit :=
  match markerOf line with
  | none => .ok ()
  | some (name, rest) =>
    if name = "revoked".toList then
      match lib.matchesHostAndKey rest with
      | none => .error .library
      | some true => .error (.revoked number)
      | some false => .ok ()
    else if name = "cert-authority".toList then
      match lineMatchesHost lib host port rest with
      | none => .error .salt
      | some true => .error (.certAuthority number)
      | some false => .ok ()
    else .ok ()

/-- `check_known_hosts_markers`; a line is `none` if it cannot be read. -/
def checkKnownHostsMarkers (number : ℕ) : List (Option Text) → Except MarkerError Unit
  | [] => .ok ()
  | none :: _ => .error (.unreadable number)
  | some line :: lines =>
    match checkLine lib host port number line with
    | .error e => .error e
    | .ok () => checkKnownHostsMarkers (number + 1) lines

/-! ### What OpenSSH matches -/

/-- A pattern with `*` and `?`. -/
def wildcardMatches : Text → Text → Bool
  | [], text => text.isEmpty
  | c :: pattern, text =>
    if c = '*' then text.tails.any (wildcardMatches pattern)
    else match text with
      | [] => false
      | d :: text => (c = '?' || c = d) && wildcardMatches pattern text

/-- A host field: a hashed name, or patterns of which one matches and no negated one does. -/
def opensshMatches (field : Text) : Bool :=
  match hashedHost field with
  | some [salt, hash] =>
    (lib.decodeSalt salt).any fun salt => lib.hmacSha1 salt (target host port) == hash
  | some _ => false
  | none =>
    (field.splitOn ',').any (fun pattern => pattern.head? ≠ some '!' &&
      wildcardMatches pattern (target host port)) &&
    !(field.splitOn ',').any fun pattern => pattern.head? = some '!' &&
      wildcardMatches pattern.tail (target host port)

/-- A `@cert-authority` line for this host. -/
def Applicable (line : Text) : Prop :=
  ∃ rest field keys, markerOf line = some ("cert-authority".toList, rest) ∧
    words isWhitespace rest = field :: keys ∧ opensshMatches lib host port field = true

/-- The line has a key type and a key, and its host field is hashed, or a name that stands in it as
it is: alone and without a wildcard, or in a list. -/
def Recognised (line : Text) : Prop :=
  ∃ rest field kind key more, markerOf line = some ("cert-authority".toList, rest) ∧
    words isWhitespace rest = field :: kind :: key :: more ∧
    ((hashedHost field).isSome ∨
      ((target host port ∈ field.splitOn ',' ∨ host ∈ field.splitOn ',') ∧
        (',' ∈ field ∨ '*' ∉ field ∧ '?' ∉ field)))

/-- Every file with this line in it is refused. -/
def Blocks (line : Text) : Prop :=
  ∀ before after, ∃ e, checkKnownHostsMarkers lib host port 1 (before ++ some line :: after) = .error e

/-! ### The loop -/

variable {lib host port} {line rest field : Text} {keys : List Text}

theorem checkKnownHostsMarkers_error (h : ∀ number, ∃ e, checkLine lib host port number line = .error e)
    (before after : List (Option Text)) (number : ℕ) :
    ∃ e, checkKnownHostsMarkers lib host port number (before ++ some line :: after) = .error e := by
  induction before generalizing number with
  | nil =>
    obtain ⟨e, he⟩ := h number
    exact ⟨e, by simp [checkKnownHostsMarkers, he]⟩
  | cons first before ih =>
    cases first with
    | none => exact ⟨_, rfl⟩
    | some text =>
      cases hfirst : checkLine lib host port number text with
      | error e => exact ⟨e, by simp [checkKnownHostsMarkers, hfirst]⟩
      | ok u => simpa [checkKnownHostsMarkers, hfirst] using ih (number + 1)

theorem blocks_iff (hmarker : markerOf line = some ("cert-authority".toList, rest)) :
    Blocks lib host port line ↔ lineMatchesHost lib host port rest ≠ some false := by
  constructor
  · intro hblocks hmatch
    obtain ⟨e, he⟩ := hblocks [] []
    simp [checkKnownHostsMarkers, checkLine, hmarker, hmatch] at he
  · intro hmatch before after
    refine checkKnownHostsMarkers_error (fun number => ?_) before after 1
    rcases hresult : lineMatchesHost lib host port rest with _ | _ | _
    · exact ⟨.salt, by simp [checkLine, hmarker, hresult]⟩
    · exact absurd hresult hmatch
    · exact ⟨.certAuthority number, by simp [checkLine, hmarker, hresult]⟩

theorem lineMatchesHost_iff (hwords : words isWhitespace rest = field :: keys)
    (hopenssh : opensshMatches lib host port field = true) :
    lineMatchesHost lib host port rest ≠ some false ↔ ∃ kind key more, keys = kind :: key :: more ∧
      ((hashedHost field).isSome ∨
        ((target host port ∈ field.splitOn ',' ∨ host ∈ field.splitOn ',') ∧
          (',' ∈ field ∨ '*' ∉ field ∧ '?' ∉ field))) := by
  rcases keys with _ | ⟨kind, _ | ⟨key, more⟩⟩
  · simp [lineMatchesHost, hwords]
  · simp [lineMatchesHost, hwords]
  have hkeys : ∀ q : Prop, (∃ kind' key' more', kind :: key :: more = kind' :: key' :: more' ∧ q) ↔
      q := fun q => ⟨by rintro ⟨-, -, -, -, h⟩; exact h, fun h => ⟨kind, key, more, rfl, h⟩⟩
  rw [hkeys, lineMatchesHost, hwords]
  rw [opensshMatches] at hopenssh
  cases hhashed : hashedHost field with
  | some parts =>
    rw [hhashed] at hopenssh
    refine iff_of_true ?_ (.inl rfl)
    rcases parts with _ | ⟨salt, _ | ⟨hash, _ | ⟨_, _⟩⟩⟩ <;> simp only [hhashed] at hopenssh ⊢
    · cases hopenssh
    · cases hopenssh
    · cases hsalt : lib.decodeSalt salt with
      | none => simp [hsalt] at hopenssh
      | some bytes => simpa [hsalt] using hopenssh
    · cases hopenssh
  | none =>
    have hnamed : ∀ names : List Text,
        names.any (fun h => h == target host port || h == host) = true ↔
          target host port ∈ names ∨ host ∈ names := by
      intro names
      simp only [any_eq_true, Bool.or_eq_true, beq_iff_eq, and_or_left, exists_or,
        exists_eq_right]
    simp only [hhashed, Option.isSome_none, Bool.false_eq_true, false_or]
    split_ifs with hcomma hwild
    · simp only [ne_eq, Option.some.injEq, Bool.not_eq_false, hnamed]
      exact (and_iff_left (.inl (contains_iff_mem.mp hcomma))).symm
    · simp only [contains_iff_mem, Bool.or_eq_true] at hcomma hwild
      simp only [ne_eq, not_true_eq_false, hcomma, false_or, false_iff]
      tauto
    · simp only [contains_iff_mem, Bool.or_eq_true, not_or] at hcomma hwild
      have hone := hnamed [field]
      simp only [any_cons, any_nil, Bool.or_false] at hone
      simp only [ne_eq, Option.some.injEq, Bool.not_eq_false, hone, splitOn_eq_singleton hcomma]
      exact (and_iff_left (.inr hwild)).symm

/-- **Certificate authorities.**  A line for this host blocks every connection exactly if its host
field is one the check recognises. -/
theorem cert_authority_blocks_iff (lib : HostLibrary) (host : Text) (port : ℕ) (line : Text) :
    (Applicable lib host port line → Blocks lib host port line) ↔
      (Applicable lib host port line → Recognised host port line) := by
  refine forall_congr' fun happlicable => ?_
  obtain ⟨rest, field, keys, hmarker, hwords, hopenssh⟩ := happlicable
  rw [blocks_iff hmarker, lineMatchesHost_iff hwords hopenssh]
  constructor
  · rintro ⟨kind, key, more, rfl, hfield⟩
    exact ⟨rest, field, kind, key, more, hmarker, hwords, hfield⟩
  · rintro ⟨rest', field', kind, key, more, hmarker', hwords', hfield⟩
    obtain rfl : rest = rest' := by simpa [hmarker] using hmarker'
    obtain ⟨rfl, rfl⟩ := List.cons.inj (hwords.symm.trans hwords')
    exact ⟨kind, key, more, rfl, hfield⟩

/-- A library that never matches. -/
def noLibrary : HostLibrary := ⟨fun _ => some false, fun _ => none, fun _ _ => []⟩

/-- A certificate authority for all hosts of a domain is not seen. -/
theorem wildcard_authority_ignored :
    Applicable noLibrary "r1.lab".toList 22 "@cert-authority *.lab ssh-rsa AAAA".toList ∧
      ∃ out, checkKnownHostsMarkers noLibrary "r1.lab".toList 22 1
        [some "@cert-authority *.lab ssh-rsa AAAA".toList] = .ok out :=
  ⟨⟨"*.lab ssh-rsa AAAA".toList, "*.lab".toList, ["ssh-rsa".toList, "AAAA".toList], by decide,
    by decide, by decide⟩, (), rfl⟩

end Mecmcp.Scp
