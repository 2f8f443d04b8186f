import Mecmcp.Changeset.Digest
import Mecmcp.Lib.JsonText

/-!
# Preimage — what the digests hash

Every digest of `digest.rs` but the keyed one is a SHA-256 of a byte string: the compact JSON of a
tuple, or the legacy fields joined by `|`.  `serdePrinter` is the printer of `serde_json`: strings
with their escapes, integers in decimal; how a float is written is left open (`FloatText`).

`DigestCall` is a call of one of the digest functions and `DigestCall.preimage` the byte string it
hashes; `digest_preimages_unambiguous` says that the byte string tells the call.
-/

namespace Mecmcp.Changeset

open List

/-! ### Strings -/

/-- A lower-case hexadecimal digit. -/
def hexByte (n : ℕ) : UInt8 := UInt8.ofNat (if n < 10 then 48 + n else 87 + n)

/-- One byte inside a JSON string, as `serde_json` writes it. -/
def escapeByte (byte : UInt8) : List UInt8 :=
  if byte = 34 then [92, 34]
  else if byte = 92 then [92, 92]
  else if byte = 8 then [92, 98]
  else if byte = 9 then [92, 116]
  else if byte = 10 then [92, 110]
  else if byte = 12 then [92, 102]
  else if byte = 13 then [92, 114]
  else if byte.toNat < 32 then
    [92, 117, 48, 48, hexByte (byte.toNat / 16), hexByte (byte.toNat % 16)]
  else [byte]

def escape (bytes : List UInt8) : List UInt8 := bytes.flatMap escapeByte

/-- The value of a hexadecimal digit. -/
def unhex (digit : UInt8) : ℕ := if digit.toNat < 58 then digit.toNat - 48 else digit.toNat - 87

/-- The byte an escaped text starts with, and the rest. -/
def unescapeByte : List UInt8 → Option (UInt8 × List UInt8)
  | 92 :: 117 :: _ :: _ :: high :: low :: rest =>
    some (UInt8.ofNat (unhex high * 16 + unhex low), rest)
  | 92 :: code :: rest => some
      (if code = 98 then 8 else if code = 116 then 9 else if code = 110 then 10
        else if code = 102 then 12 else if code = 114 then 13 else code, rest)
  | byte :: rest => some (byte, rest)
  | [] => none

theorem unhex_hexByte : ∀ n < 32, UInt8.ofNat
    (unhex (hexByte (n / 16)) * 16 + unhex (hexByte (n % 16))) = UInt8.ofNat n := by decide

theorem unescapeByte_escapeByte (byte : UInt8) (rest : List UInt8) :
    unescapeByte (escapeByte byte ++ rest) = some (byte, rest) := by
  unfold escapeByte
  split_ifs with hquote hback hb ht hn hf hr hcontrol
  · subst hquote; rfl
  · subst hback; rfl
  · subst hb; rfl
  · subst ht; rfl
  · subst hn; rfl
  · subst hf; rfl
  · subst hr; rfl
  · show some (UInt8.ofNat (unhex (hexByte (byte.toNat / 16)) * 16 +
      unhex (hexByte (byte.toNat % 16))), rest) = _
    rw [unhex_hexByte _ hcontrol, UInt8.ofNat_toNat]
  · show unescapeByte (byte :: rest) = _
    unfold unescapeByte
    split <;> simp_all

theorem escapeByte_head (byte : UInt8) : ∃ first rest, escapeByte byte = first :: rest ∧
    first ≠ 34 := by
  unfold escapeByte
  split_ifs with hquote
  all_goals first
    | exact ⟨_, _, rfl, by decide⟩
    | exact ⟨_, _, rfl, hquote⟩

theorem escape_ends (s t : List UInt8) {x y : List UInt8}
    (h : escape s ++ 34 :: x = escape t ++ 34 :: y) : s = t ∧ x = y := by
  induction s generalizing t with
  | nil =>
    cases t with
    | nil => exact ⟨rfl, (List.cons.inj h).2⟩
    | cons b t =>
      obtain ⟨first, rest, hhead, hne⟩ := escapeByte_head b
      simp only [escape, flatMap_nil, flatMap_cons, hhead, nil_append,
        cons_append] at h
      exact absurd (List.cons.inj h).1.symm hne
  | cons b s ih =>
    cases t with
    | nil =>
      obtain ⟨first, rest, hhead, hne⟩ := escapeByte_head b
      simp only [escape, flatMap_nil, flatMap_cons, hhead, nil_append,
        cons_append] at h
      exact absurd (List.cons.inj h).1 hne
    | cons b' t =>
      simp only [escape, flatMap_cons, append_assoc] at h
      have hdecoded := congrArg unescapeByte h
      rw [unescapeByte_escapeByte, unescapeByte_escapeByte] at hdecoded
      obtain ⟨rfl, hrest⟩ := Prod.mk.inj (Option.some.inj hdecoded)
      obtain ⟨rfl, hx⟩ := ih t hrest
      exact ⟨rfl, hx⟩

/-! ### Numbers -/

def decimal (n : ℕ) : List UInt8 := utf8 (toString n)

theorem decimal_injective : Function.Injective decimal := by
  intro n m h
  have htext : n.repr = m.repr := utf8_injective h
  exact Nat.repr_injective htext

theorem utf8EncodeChar_isDigit {c : Char} (h : c.isDigit = true) :
    ∃ byte : UInt8, String.utf8EncodeChar c = [byte] ∧ 48 ≤ byte.toNat ∧ byte.toNat ≤ 57 := by
  have hrange : 48 ≤ c.val.toNat ∧ c.val.toNat ≤ 57 := by
    simpa [Char.isDigit, UInt32.le_iff_toNat_le] using h
  have hsize : c.utf8Size = 1 := by
    rw [Char.utf8Size_eq_one_iff, UInt32.le_iff_toNat_le]
    exact le_trans hrange.2 (by decide)
  refine ⟨c.val.toUInt8, String.utf8EncodeChar_eq_singleton hsize, ?_⟩
  rw [UInt32.toNat_toUInt8]
  omega

theorem decimal_digits {n : ℕ} {byte : UInt8} (h : byte ∈ decimal n) :
    48 ≤ byte.toNat ∧ byte.toNat ≤ 57 := by
  have hdecimal : decimal n = (Nat.toDigits 10 n).flatMap String.utf8EncodeChar := by
    rw [decimal, Nat.toString_eq_repr, Nat.repr_eq_ofList_toDigits, utf8_ofList]
  rw [hdecimal, mem_flatMap] at h
  obtain ⟨c, hc, hbyte⟩ := h
  obtain ⟨digit, hdigit, hrange⟩ :=
    utf8EncodeChar_isDigit (Nat.isDigit_of_mem_toDigits (by decide) (by decide) hc)
  rw [hdigit, mem_singleton] at hbyte
  subst hbyte
  exact hrange

theorem decimal_ne_nil (n : ℕ) : decimal n ≠ [] := by
  intro h
  have hempty : n.repr = "" := utf8_injective h
  exact Nat.repr_ne_empty hempty

/-- How a float is written: with a point or an exponent, and differently for different floats. -/
structure FloatText where
  text : UInt64 → List UInt8
  bytes : ∀ bits, ∀ byte ∈ text bits, isNumberByte byte = true
  marked : ∀ bits, 46 ∈ text bits ∨ 101 ∈ text bits
  injective : Function.Injective text

/-- A number, as `serde_json` writes it. -/
def numberText (floats : FloatText) : Number → List UInt8
  | .posInt n => decimal n.toNat
  | .negInt n => 45 :: decimal n.1.toInt.natAbs
  | .float bits => floats.text bits

variable {floats : FloatText}

theorem FloatText.ne_integer (bits : UInt64) {text : List UInt8}
    (h : ∀ byte ∈ text, byte = 45 ∨ 48 ≤ byte.toNat ∧ byte.toNat ≤ 57) :
    floats.text bits ≠ text := by
  rintro rfl
  rcases floats.marked bits with hpoint | hexponent
  · exact absurd (h _ hpoint) (by decide)
  · exact absurd (h _ hexponent) (by decide)

theorem negInt_toInt_injective {n m : {n : Int64 // n < 0}}
    (h : n.1.toInt.natAbs = m.1.toInt.natAbs) : n = m := by
  have hn : n.1.toInt < 0 := by simpa [Int64.lt_iff_toInt_lt] using n.2
  have hm : m.1.toInt < 0 := by simpa [Int64.lt_iff_toInt_lt] using m.2
  exact Subtype.ext (Int64.toInt_inj.mp (by omega))

theorem decimal_ne_minus {n : ℕ} {rest : List UInt8} : decimal n ≠ 45 :: rest := by
  intro h
  have hdigit := @decimal_digits n 45 (by rw [h]; exact mem_cons_self)
  exact absurd hdigit (by decide)

theorem numberText_injective : Function.Injective (numberText floats) := by
  have hpos : ∀ n : UInt64, ∀ byte ∈ decimal n.toNat,
      byte = 45 ∨ 48 ≤ byte.toNat ∧ byte.toNat ≤ 57 := fun n byte h => .inr (decimal_digits h)
  have hneg : ∀ n : {n : Int64 // n < 0}, ∀ byte ∈ 45 :: decimal n.1.toInt.natAbs,
      byte = 45 ∨ 48 ≤ byte.toNat ∧ byte.toNat ≤ 57 := by
    intro n byte h
    rcases mem_cons.mp h with rfl | h
    · exact .inl rfl
    · exact .inr (decimal_digits h)
  rintro (n | n | bits) (m | m | bits') h
  · exact congrArg Number.posInt (UInt64.toNat_inj.mp (decimal_injective h))
  · exact absurd h decimal_ne_minus
  · exact absurd h.symm (floats.ne_integer bits' (hpos n))
  · exact absurd h.symm decimal_ne_minus
  · have hmagnitude := decimal_injective (List.cons.inj h).2
    exact congrArg Number.negInt (negInt_toInt_injective hmagnitude)
  · exact absurd h.symm (floats.ne_integer bits' (hneg n))
  · exact absurd h (floats.ne_integer bits (hpos m))
  · exact absurd h (floats.ne_integer bits (hneg m))
  · exact congrArg Number.float (floats.injective h)

theorem isNumberByte_digit {byte : UInt8} (h : 48 ≤ byte.toNat ∧ byte.toNat ≤ 57) :
    isNumberByte byte = true := by
  simp [isNumberByte, h.1, h.2]

/-- The printer of `serde_json`. -/
def serdePrinter (floats : FloatText) : Printer where
  string s := 34 :: (escape (utf8 s) ++ [34])
  string_head _ := ⟨_, rfl⟩
  string_ends s t x y h := by
    simp only [List.cons_append, List.append_assoc, List.nil_append] at h
    obtain ⟨hbytes, hrest⟩ := escape_ends (utf8 s) (utf8 t) (List.cons.inj h).2
    exact ⟨utf8_injective hbytes, hrest⟩
  number := numberText floats
  number_ne_nil n := by
    rcases n with n | n | bits
    · exact decimal_ne_nil _
    · exact List.cons_ne_nil _ _
    · intro hnil
      rcases floats.marked bits with h | h
      all_goals
        rw [show floats.text bits = [] from hnil] at h
        cases h
  number_bytes n byte h := by
    rcases n with n | n | bits
    · exact isNumberByte_digit (decimal_digits h)
    · rcases List.mem_cons.mp h with rfl | h
      · rfl
      · exact isNumberByte_digit (decimal_digits h)
    · exact floats.bytes bits byte h
  number_injective := numberText_injective

/-! ### Calls of the digest functions -/

inductive DigestCall where
  | changeSet (owner device fingerprint : String) (actions : List Value)
  | changeSetWithTargets (owner device fingerprint : String) (actions : List Value)
      (targets : List String)
  | waiverV3 (changeSetId planDigest owner : String) (waivedAtUnix : UInt64)
      (waiver : WaiverRecord)
  | approvalV4 (changeSetId planDigest owner approver : String) (approvedAtUnix : UInt64)
  | approvalV5 (changeSetId planDigest : String) (previewDigest : Option String)
      (owner approver : String) (approvedAtUnix : UInt64)
  | approvalLegacy (changeSetId planDigest owner approver : String) (approvedAtUnix : UInt64)
  | waiverLegacy (changeSetId planDigest owner : String) (waivedAtUnix : UInt64)

namespace DigestCall

variable {a b : DigestCall} {C : Crates} {field value : String} {x y : List UInt8}

/-- The value the function returns. -/
def digest (C : Crates) : DigestCall → String
  | changeSet owner device fingerprint actions =>
    changeSetDigest C owner device fingerprint actions
  | changeSetWithTargets owner device fingerprint actions targets =>
    changeSetDigestWithTargets C owner device fingerprint actions targets
  | waiverV3 changeSetId planDigest owner waivedAtUnix waiver =>
    computeWaiverDigestV3 C changeSetId planDigest owner waivedAtUnix waiver
  | approvalV4 changeSetId planDigest owner approver approvedAtUnix =>
    computeApprovalDigestV4 C changeSetId planDigest owner approver approvedAtUnix
  | approvalV5 changeSetId planDigest previewDigest owner approver approvedAtUnix =>
    computeApprovalDigestV5 C changeSetId planDigest previewDigest owner approver approvedAtUnix
  | approvalLegacy changeSetId planDigest owner approver approvedAtUnix =>
    computeApprovalDigestLegacy C changeSetId planDigest owner approver approvedAtUnix
  | waiverLegacy changeSetId planDigest owner waivedAtUnix =>
    computeWaiverDigest C changeSetId planDigest owner waivedAtUnix

/-- With no targets, `change_set_digest_with_targets` is `change_set_digest`. -/
def normal : DigestCall → DigestCall
  | changeSetWithTargets owner device fingerprint actions [] =>
    changeSet owner device fingerprint actions
  | call => call

def members : DigestCall → Option (List Json)
  | changeSet owner device fingerprint actions =>
    some [.str owner, .str device, .str fingerprint, .arr (actions.map (·.tree))]
  | changeSetWithTargets owner device fingerprint actions [] =>
    some [.str owner, .str device, .str fingerprint, .arr (actions.map (·.tree))]
  | changeSetWithTargets owner device fingerprint actions (target :: targets) =>
    some [.str owner, .str device, .str fingerprint, .arr (actions.map (·.tree)),
      .arr ((target :: targets).map .str)]
  | waiverV3 changeSetId planDigest owner waivedAtUnix waiver =>
    some [.str "mecmcp-waiver-v3", .str changeSetId, .str planDigest, .str owner,
      .ofUInt64 waivedAtUnix, .str waiver.kind.asStr, .str waiver.reason,
      optUInt64 waiver.expiresAtUnix, optStr waiver.ticket]
  | approvalV4 changeSetId planDigest owner approver approvedAtUnix =>
    some [.str "mecmcp-approval-v4", .str changeSetId, .str planDigest, .str owner, .str approver,
      .ofUInt64 approvedAtUnix]
  | approvalV5 changeSetId planDigest previewDigest owner approver approvedAtUnix =>
    some [.str "mecmcp-approval-v5", .str changeSetId, .str planDigest, optStr previewDigest,
      .str owner, .str approver, .ofUInt64 approvedAtUnix]
  | approvalLegacy .. | waiverLegacy .. => none

def joined : DigestCall → List (List UInt8)
  | approvalLegacy changeSetId planDigest owner approver approvedAtUnix =>
    [utf8 changeSetId, utf8 planDigest, utf8 owner, utf8 approver, decimal approvedAtUnix.toNat]
  | waiverLegacy changeSetId planDigest owner waivedAtUnix =>
    [utf8 changeSetId, utf8 planDigest, utf8 owner, decimal waivedAtUnix.toNat,
      utf8 "lab-mode-waived"]
  | _ => []

/-- The byte string a call hashes. -/
def preimage (C : Crates) (call : DigestCall) : List UInt8 :=
  match call.members with
  | some members => C.toVec (.arr members)
  | none => [124].intercalate call.joined

theorem digest_eq (C : Crates) (call : DigestCall) :
    call.digest C = "sha256:" ++ digestHex C (call.preimage C) := by
  rcases call with _ | ⟨_, _, _, _, _ | _⟩ | _ | _ | _ | _ | _
  all_goals first
    | rfl
    | simp [digest, preimage, members, joined, computeApprovalDigestLegacy, computeWaiverDigest,
        decimal, List.intercalate, utf8_append, show utf8 "|" = [124] by decide]

theorem optStr_injective : Function.Injective optStr := by
  rintro (_ | s) (_ | t) h <;> simp_all [optStr]

theorem optUInt64_injective : Function.Injective optUInt64 := by
  rintro (_ | n) (_ | m) h <;> simp_all [optUInt64, Json.ofUInt64]

theorem asStr_injective : Function.Injective WaiverKind.asStr := by
  rintro (_ | _ | _) (_ | _ | _) h
  all_goals first
    | rfl
    | exact absurd h (by decide)

theorem tree_injective : Function.Injective Value.tree := by
  rintro ⟨tree, _⟩ ⟨tree', _⟩ h
  obtain rfl : tree = tree' := h
  rfl

theorem normal_of_members {members : List Json} (ha : a.members = some members)
    (hb : b.members = some members) : a.normal = b.normal := by
  have h : a.members = b.members := ha.trans hb.symm
  have hsome : a.members ≠ none := by rw [ha]; nofun
  clear ha hb
  have hstrings : Function.Injective (List.map Json.str) :=
    map_injective_iff.mpr fun _ _ => Json.str.inj
  have htrees := map_injective_iff.mpr tree_injective
  rcases a with _ | ⟨_, _, _, _, _ | _⟩ | ⟨_, _, _, _, waiver⟩ | _ | _ | _ | _ <;>
    rcases b with _ | ⟨_, _, _, _, _ | _⟩ | ⟨_, _, _, _, waiver'⟩ | _ | _ | _ | _ <;>
    simp_all [DigestCall.members, normal, Json.ofUInt64, htrees.eq_iff, hstrings.eq_iff,
      optStr_injective.eq_iff, optUInt64_injective.eq_iff, asStr_injective.eq_iff]
  obtain ⟨_, _, _, _⟩ := waiver
  obtain ⟨_, _, _, _⟩ := waiver'
  simp_all

/-! ### The legacy fields -/

/-- A digit, or one of `A` to `F` in either case. -/
def isHexDigit (byte : UInt8) : Bool :=
  (48 ≤ byte.toNat && byte.toNat ≤ 57) || (65 ≤ byte.toNat && byte.toNat ≤ 70) ||
    (97 ≤ byte.toNat && byte.toNat ≤ 102)

def ValidFields (C : Crates) (changeSetId planDigest owner : String) : Prop :=
  ((utf8 changeSetId).length = 64 ∧ (utf8 changeSetId).all isHexDigit = true) ∧
    validateDigest planDigest "digest" = .ok () ∧
    validatePrincipalForDigest C "owner" owner = .ok ()

/-- The fields of a legacy call pass their checks. -/
def Valid (C : Crates) : DigestCall → Prop
  | approvalLegacy changeSetId planDigest owner approver _ =>
    ValidFields C changeSetId planDigest owner ∧
      validatePrincipalForDigest C "approver" approver = .ok ()
  | waiverLegacy changeSetId planDigest owner _ => ValidFields C changeSetId planDigest owner
  | _ => True

theorem not_mem_of_validatePrincipal
    (h : validatePrincipalForDigest C field value = .ok ()) : 124 ∉ utf8 value := by
  intro hmem
  rw [validatePrincipalForDigest, if_pos hmem] at h
  cases h

theorem not_mem_of_validateDigest (h : validateDigest value field = .ok ()) :
    124 ∉ utf8 value := by
  intro hmem
  unfold validateDigest validateSha256 stripPrefix at h
  by_cases hprefix : (utf8 "sha256:").isPrefixOf (utf8 value) = true
  · rw [if_pos hprefix] at h
    obtain ⟨rest, hrest⟩ := isPrefixOf_iff_prefix.mp hprefix
    rw [← hrest] at h hmem
    rcases mem_append.mp hmem with hstart | htail
    · exact absurd hstart (by decide)
    · by_cases hhex : isLowerHex64 rest = true
      · have hbar := all_eq_true.mp (Bool.and_eq_true_iff.mp hhex).2 124 htail
        exact absurd hbar (by decide)
      · simp [hhex] at h
  · rw [if_neg hprefix] at h
    cases h

theorem not_mem_of_hex {text : String} (h : (utf8 text).all isHexDigit = true) :
    124 ∉ utf8 text :=
  fun hmem => absurd (all_eq_true.mp h 124 hmem) (by decide)

theorem not_mem_decimal (n : ℕ) : 124 ∉ decimal n :=
  fun hmem => absurd (decimal_digits hmem) (by decide)

theorem separated_inj {a b : List UInt8} (ha : 124 ∉ a) (hb : 124 ∉ b)
    (h : a ++ 124 :: x = b ++ 124 :: y) : a = b ∧ x = y := by
  have hfield : ∀ {a x : List UInt8}, 124 ∉ a → (a ++ 124 :: x).takeWhile (· != 124) = a := by
    intro a x ha
    rw [takeWhile_append_of_pos fun byte hbyte => by
      simpa using fun heq : byte = 124 => ha (heq ▸ hbyte)]
    simp
  have heq : a = b := by rw [← hfield ha, h, hfield hb]
  subst heq
  exact ⟨rfl, (List.cons.inj (append_cancel_left h)).2⟩

theorem validFields_inj {id id' plan plan' owner owner' : String}
    (ha : ValidFields C id plan owner) (hb : ValidFields C id' plan' owner')
    (h : utf8 id ++ 124 :: (utf8 plan ++ 124 :: (utf8 owner ++ 124 :: x)) =
      utf8 id' ++ 124 :: (utf8 plan' ++ 124 :: (utf8 owner' ++ 124 :: y))) :
    id = id' ∧ plan = plan' ∧ owner = owner' ∧ x = y := by
  obtain ⟨⟨-, hid⟩, hplan, howner⟩ := ha
  obtain ⟨⟨-, hid'⟩, hplan', howner'⟩ := hb
  obtain ⟨hids, h⟩ := separated_inj (not_mem_of_hex hid) (not_mem_of_hex hid') h
  obtain ⟨hplans, h⟩ := separated_inj (not_mem_of_validateDigest hplan)
    (not_mem_of_validateDigest hplan') h
  obtain ⟨howners, h⟩ := separated_inj (not_mem_of_validatePrincipal howner)
    (not_mem_of_validatePrincipal howner') h
  exact ⟨utf8_injective hids, utf8_injective hplans, utf8_injective howners, h⟩

theorem eq_of_joined (ha : a.Valid C) (hb : b.Valid C)
    (hma : a.members = none) (hmb : b.members = none)
    (h : [124].intercalate a.joined = [124].intercalate b.joined) : a = b := by
  have hlast : ∀ n, decimal n ≠ utf8 "lab-mode-waived" := by
    intro n heq
    have hmem : (108 : UInt8) ∈ decimal n := by rw [heq]; decide
    exact absurd (decimal_digits hmem) (by decide)
  rcases a with _ | ⟨_, _, _, _, _ | _⟩ | _ | _ | _ | ⟨id, plan, owner, approver, at_⟩ |
    ⟨id, plan, owner, at_⟩ <;> try cases hma
  all_goals
    rcases b with _ | ⟨_, _, _, _, _ | _⟩ | _ | _ | _ | ⟨id', plan', owner', approver', at'⟩ |
      ⟨id', plan', owner', at'⟩ <;> try cases hmb
  all_goals simp only [joined, List.intercalate, List.intersperse, flatten_cons,
    flatten_nil, append_nil, cons_append, nil_append] at h
  · obtain ⟨rfl, rfl, rfl, hrest⟩ := validFields_inj ha.1 hb.1 h
    obtain ⟨happrover, htime⟩ := separated_inj (not_mem_of_validatePrincipal ha.2)
      (not_mem_of_validatePrincipal hb.2) hrest
    rw [utf8_injective happrover, UInt64.toNat_inj.mp (decimal_injective htime)]
  · obtain ⟨rfl, rfl, rfl, hrest⟩ := validFields_inj ha.1 hb h
    exact absurd (separated_inj (not_mem_of_validatePrincipal ha.2) (not_mem_decimal _) hrest).2
      (hlast _)
  · obtain ⟨rfl, rfl, rfl, hrest⟩ := validFields_inj ha hb.1 h
    exact absurd (separated_inj (not_mem_decimal _) (not_mem_of_validatePrincipal hb.2) hrest).2.symm
      (hlast _)
  · obtain ⟨rfl, rfl, rfl, hrest⟩ := validFields_inj ha hb h
    have htime := (separated_inj (not_mem_decimal _) (not_mem_decimal _) hrest).1
    rw [UInt64.toNat_inj.mp (decimal_injective htime)]

theorem joined_head {call : DigestCall} (hvalid : call.Valid C)
    (hnone : call.members = none) : ∃ first rest,
      [124].intercalate call.joined = first :: rest ∧ isHexDigit first = true := by
  have hfirst : ∀ (id : String) (rest : List UInt8), (utf8 id).length = 64 →
      (utf8 id).all isHexDigit = true → ∃ first rest', utf8 id ++ rest = first :: rest' ∧
        isHexDigit first = true := by
    intro id rest hlength hhex
    rcases hid : utf8 id with _ | ⟨first, tail⟩
    · rw [hid] at hlength
      cases hlength
    · rw [hid] at hhex
      exact ⟨first, _, rfl, all_eq_true.mp hhex first mem_cons_self⟩
  rcases call with _ | ⟨_, _, _, _, _ | _⟩ | _ | _ | _ | ⟨id, plan, owner, approver, at_⟩ |
    ⟨id, plan, owner, at_⟩ <;> try cases hnone
  · exact hfirst id _ hvalid.1.1.1 hvalid.1.1.2
  · exact hfirst id _ hvalid.1.1 hvalid.1.2

end DigestCall

/-- **The hashed byte string tells the call.**  With the printer of `serde_json`, two calls of the
digest functions that hash the same bytes are calls of the same kind with the same arguments, where
no targets are the same as `change_set_digest`; the legacy encodings need their fields to pass the
checks made on them. -/
theorem digest_preimages_unambiguous {C : Crates} {floats : FloatText}
    (hprinter : C.toVec = (serdePrinter floats).render) {a b : DigestCall} (ha : a.Valid C)
    (hb : b.Valid C) (h : a.preimage C = b.preimage C) : a.normal = b.normal := by
  unfold DigestCall.preimage at h
  rw [hprinter] at h
  rcases hma : a.members with _ | members <;> rcases hmb : b.members with _ | members' <;>
    rw [hma, hmb] at h <;> dsimp only at h
  · rw [DigestCall.eq_of_joined ha hb hma hmb h]
  · obtain ⟨first, rest, hjoined, hhex⟩ := DigestCall.joined_head ha hma
    rw [hjoined] at h
    rw [(List.cons.inj h).1] at hhex
    exact absurd hhex (by decide)
  · obtain ⟨first, rest, hjoined, hhex⟩ := DigestCall.joined_head hb hmb
    rw [hjoined] at h
    rw [← (List.cons.inj h).1] at hhex
    exact absurd hhex (by decide)
  · obtain rfl := Json.arr.inj (Printer.render_injective h)
    exact DigestCall.normal_of_members hma hmb

/-- Floats written as a point and their bits. -/
def FloatText.sample : FloatText where
  text bits := 46 :: decimal bits.toNat
  bytes bits byte h := by
    rcases List.mem_cons.mp h with rfl | h
    · rfl
    · exact isNumberByte_digit (decimal_digits h)
  marked bits := .inl List.mem_cons_self
  injective bits bits' h := UInt64.toNat_inj.mp (decimal_injective (List.cons.inj h).2)

def samplePrinter : Printer := serdePrinter FloatText.sample

/-- `Crates.sample` with the printer of `serde_json`. -/
def Crates.printing : Crates := { Crates.sample with toVec := samplePrinter.render }

/-- A legacy approval by `bob` of a plan of `alice`. -/
def legacyApproval : DigestCall :=
  .approvalLegacy (String.ofList (List.replicate 64 'a'))
    ("sha256:" ++ String.ofList (List.replicate 64 '0')) "alice" "bob" 1700000000

theorem legacyApproval_valid : legacyApproval.Valid Crates.printing := by
  have hchecked : ((utf8 (String.ofList (List.replicate 64 'a'))).length = 64 ∧
      (utf8 (String.ofList (List.replicate 64 'a'))).all DigestCall.isHexDigit = true) ∧
      validateDigest ("sha256:" ++ String.ofList (List.replicate 64 '0')) "digest" = .ok () := by
    decide +kernel
  exact ⟨⟨hchecked.1, hchecked.2, rfl⟩, rfl⟩

/-- With no targets both plan functions hash the same; a legacy approval does not hash what an
approval of version 4 does. -/
theorem digest_preimages_of_calls :
    (DigestCall.changeSetWithTargets "alice" "edge1" "fp" [] []).normal =
        (DigestCall.changeSet "alice" "edge1" "fp" []).normal ∧
      legacyApproval.preimage Crates.printing ≠
        (DigestCall.approvalV4 "a" "b" "alice" "bob" 1700000000).preimage Crates.printing :=
  ⟨@digest_preimages_unambiguous Crates.printing FloatText.sample rfl
      (.changeSetWithTargets "alice" "edge1" "fp" [] []) (.changeSet "alice" "edge1" "fp" [])
      trivial trivial rfl,
    fun h => nomatch @digest_preimages_unambiguous Crates.printing FloatText.sample rfl
      legacyApproval (.approvalV4 "a" "b" "alice" "bob" 1700000000) legacyApproval_valid trivial h⟩

end Mecmcp.Changeset
