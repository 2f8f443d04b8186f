import Mecmcp.Redact.Json
import Mecmcp.Redact.Text

/-!
# Profile — a vendor's extensions to the JSON scan

`profile.rs`.  A profile names fields that are withheld whole before the scan, and field names that
are exempt from the denylist; the scan itself is `redactInner`.

Positions of a value are paths of places in its objects and arrays, which redaction keeps.  What the
plain scan replaces, the scan under a profile replaces or withholds too, but for the exemptions, as
long as the profile does not withhold the `type` beside WEP keys: the scan comes after the
withholding and recognises the keys by their `type` (`profile_uncovers_nothing_iff`).
-/

namespace Mecmcp.Redact

open List Option

variable {exempt keys : List Text} {bgp underBgp : Bool} {parentKey sibling : Option Text}
  {members : List (String × Json)} {i : ℕ}

/-! ### Profiles -/

/-- `check_normalized`: lowercase ASCII letters and digits, and not empty. -/
def isNormalizedEntry (entry : Text) : Bool :=
  !entry.isEmpty && entry.all fun c => (97 ≤ c.toNat && c.toNat ≤ 122) ||
    (48 ≤ c.toNat && c.toNat ≤ 57)

/-- A profile; `Profile::new` takes normalized entries only. -/
structure Profile where
  wholesaleRedactKeys : List Text
  keyExemptions : List Text
  bgpRouteCommunities : Bool
  normalized : (wholesaleRedactKeys ++ keyExemptions).all isNormalizedEntry = true

def contextuallyDenylistedExactKeys : List String := ["keys"]

def isDenylistTerm (entry : Text) : Bool :=
  (denylistedKeys ++ denylistedExactKeys ++ contextuallyDenylistedExactKeys).any
    fun term => term.toList == entry

def Profile.checkExemptions (profile : Profile) : Except Text Unit :=
  match profile.keyExemptions.find? isDenylistTerm with
  | some exemption => .error exemption
  | none => .ok ()

/-- What becomes of the value of a withheld field. -/
def withhold : Json → Json
  | .null => .null
  | _ => .str placeholderString

mutual
/-- Withhold the values under the keys, at any depth. -/
def redactWholesaleFields (keys : List Text) : Json → Json
  | .obj members => .obj (redactWholesaleMembers keys members)
  | .arr items => .arr (redactWholesaleItems keys items)
  | .null => .null
  | .bool b => .bool b
  | .num n => .num n
  | .str s => .str s

def redactWholesaleMembers (keys : List Text) : List (String × Json) → List (String × Json)
  | [] => []
  | (key, value) :: members =>
    (key, if keys.contains (normalize key.toList) then withhold value
      else redactWholesaleFields keys value) :: redactWholesaleMembers keys members

def redactWholesaleItems (keys : List Text) : List Json → List Json
  | [] => []
  | value :: items => redactWholesaleFields keys value :: redactWholesaleItems keys items
end

/-- `redact_json_value_with_profile`. -/
def redactJsonWithProfile (redactText : String → String) (profile : Profile) (value : Json) :
    Json :=
  redactInner redactText profile.keyExemptions profile.bgpRouteCommunities none false
    (redactWholesaleFields profile.wholesaleRedactKeys value)

/-- `text::redact` on strings. -/
def redactString (s : String) : String := String.ofList (redactText s.toList)

/-! ### Positions -/

def isScalar : Json → Bool
  | .obj _ => false
  | .arr _ => false
  | _ => true

def valueAt : Json → List ℕ → Option Json
  | value, [] => some value
  | .obj members, i :: path => (members[i]?).bind fun member => valueAt member.2 path
  | .arr items, i :: path => (items[i]?).bind fun item => valueAt item path
  | _, _ :: _ => none

/-- The placeholder is at the position or above it. -/
def Withheld : Json → List ℕ → Prop
  | .str s, _ => s = placeholderString
  | .obj members, i :: path => ∃ member, members[i]? = some member ∧ Withheld member.2 path
  | .arr items, i :: path => ∃ item, items[i]? = some item ∧ Withheld item path
  | _, _ => False

/-- The key that makes a position secret in the plain scan. -/
def secretKey (parentKey : Option Text) : Json → List ℕ → Option Text
  | .obj members, i :: path => (members[i]?).bind fun member =>
      if isDenylistedKey member.1.toList ||
          isWepKeysField member.1.toList parentKey (siblingType members) then
        some member.1.toList
      else secretKey (some member.1.toList) member.2 path
  | .arr items, i :: path => (items[i]?).bind fun item => secretKey parentKey item path
  | _, _ => none

/-- The position is below a `community` key that has a `bgp` key above it. -/
def belowBgpCommunity (underBgp : Bool) : Json → List ℕ → Bool
  | .obj members, i :: path => (members[i]?).any fun member =>
      isBgpCommunityField member.1.toList underBgp ||
        belowBgpCommunity (underBgp || isBgpScopeKey member.1.toList) member.2 path
  | .arr items, i :: path => (items[i]?).any fun item => belowBgpCommunity underBgp item path
  | _, _ => false

/-- What a profile may uncover: below an exempt key, or the tag of a BGP route community. -/
def Exempted (exempt : List Text) (parentKey : Option Text) (underBgp : Bool) (value : Json)
    (path : List ℕ) (leaf : Json) : Prop :=
  (∃ key, secretKey parentKey value path = some key ∧ exempt.contains (normalize key) = true) ∨
    (belowBgpCommunity underBgp value path = true ∧
      ∃ s, leaf = .str s ∧ isBgpCommunityTag s.toList = true)

/-- Every scalar that the plain scan replaces is replaced or withheld under the profile, or
exempted. -/
def UncoversNothing (profile : Profile) (value : Json) : Prop :=
  ∀ path leaf, valueAt value path = some leaf → isScalar leaf = true →
    valueAt (redactJson redactString value) path = some (.str placeholderString) →
    Withheld (redactJsonWithProfile redactString profile value) path ∨
      Exempted profile.keyExemptions none false value path leaf

/-! ### Redaction place by place -/

def redactMember (redactText : String → String) (exempt : List Text) (bgp : Bool)
    (parentKey sibling : Option Text) (underBgp : Bool) (key : Text) (value : Json) : Json :=
  if exempt.contains (normalize key) then
    redactInner redactText exempt bgp (some key) (underBgp || isBgpScopeKey key) value
  else if isSecretMember bgp parentKey sibling underBgp key value then redactLeaf value
  else redactInner redactText exempt bgp (some key) (underBgp || isBgpScopeKey key) value

variable {redactText : String → String} {items : List Json} {path : List ℕ} {value leaf : Json}

/-- A function that goes through a list element by element acts at each place. -/
theorem getElem?_of_cons {α β : Type} {f : List α → List β} {g : α → β} (hnil : f [] = [])
    (hcons : ∀ x xs, f (x :: xs) = g x :: f xs) (xs : List α) (i : ℕ) :
    (f xs)[i]? = (xs[i]?).map g := by
  induction xs generalizing i with
  | nil => rw [hnil]; rfl
  | cons x xs ih =>
    rw [hcons]
    cases i with
    | zero => rfl
    | succ i => exact ih i

theorem redactMembers_getElem? :
    (redactMembers redactText exempt bgp parentKey sibling underBgp members)[i]? =
      (members[i]?).map fun member => (member.1, redactMember redactText exempt bgp parentKey
        sibling underBgp member.1.toList member.2) :=
  getElem?_of_cons rfl (by rintro ⟨_, _⟩ _; rfl) members i

theorem redactItems_getElem? :
    (redactItems redactText exempt bgp parentKey underBgp items)[i]? =
      (items[i]?).map (redactInner redactText exempt bgp parentKey underBgp) :=
  getElem?_of_cons rfl (fun _ _ => rfl) items i

theorem redactLeafMembers_getElem? :
    (redactLeafMembers members)[i]? =
      (members[i]?).map fun member => (member.1, redactLeaf member.2) :=
  getElem?_of_cons rfl (by rintro ⟨_, _⟩ _; rfl) members i

theorem redactLeafItems_getElem? :
    (redactLeafItems items)[i]? = (items[i]?).map redactLeaf :=
  getElem?_of_cons rfl (fun _ _ => rfl) items i

theorem redactWholesaleMembers_getElem? :
    (redactWholesaleMembers keys members)[i]? = (members[i]?).map fun member => (member.1,
      if keys.contains (normalize member.1.toList) then withhold member.2
      else redactWholesaleFields keys member.2) :=
  getElem?_of_cons rfl (by rintro ⟨_, _⟩ _; rfl) members i

theorem redactWholesaleItems_getElem? :
    (redactWholesaleItems keys items)[i]? = (items[i]?).map (redactWholesaleFields keys) :=
  getElem?_of_cons rfl (fun _ _ => rfl) items i

/-! ### Scalars that are not null -/

theorem valueAt_null (h : valueAt .null path = some leaf) :
    leaf = .null := by
  cases path with
  | nil => exact (Option.some.inj h).symm
  | cons i path => cases h

theorem withheld_placeholder (path : List ℕ) : Withheld (.str placeholderString) path := by
  cases path <;> rfl

theorem withhold_eq (hat : valueAt value path = some leaf)
    (hleaf : leaf ≠ .null) : withhold value = .str placeholderString := by
  cases value with
  | null => exact absurd (valueAt_null hat) hleaf
  | _ => rfl

theorem withheld_redactLeaf (hat : valueAt value path = some leaf) (hscalar : isScalar leaf = true)
    (hleaf : leaf ≠ .null) : Withheld (redactLeaf (redactWholesaleFields keys value)) path := by
  induction path generalizing value with
  | nil =>
    obtain rfl := Option.some.inj hat
    cases value with
    | null => exact absurd rfl hleaf
    | obj members => cases hscalar
    | arr items => cases hscalar
    | _ => rfl
  | cons i path ih =>
    cases value with
    | obj members =>
      obtain ⟨member, hmember, hat⟩ := bind_eq_some_iff.mp hat
      have hplace : (redactLeafMembers (redactWholesaleMembers keys members))[i]? =
          some (member.1, redactLeaf (if keys.contains (normalize member.1.toList) then
            withhold member.2 else redactWholesaleFields keys member.2)) := by
        rw [redactLeafMembers_getElem?, redactWholesaleMembers_getElem?, hmember]
        rfl
      refine ⟨_, hplace, ?_⟩
      dsimp only
      split
      · rw [withhold_eq hat hleaf]
        exact withheld_placeholder path
      · exact ih hat
    | arr items =>
      obtain ⟨item, hitem, hat⟩ := bind_eq_some_iff.mp hat
      have hplace : (redactLeafItems (redactWholesaleItems keys items))[i]? =
          some (redactLeaf (redactWholesaleFields keys item)) := by
        rw [redactLeafItems_getElem?, redactWholesaleItems_getElem?, hitem]
        rfl
      exact ⟨_, hplace, ih hat⟩
    | _ => cases hat

theorem redactLeaf_ne_null (hat : valueAt value path = some leaf)
    (hout : valueAt (redactLeaf value) path = some (.str placeholderString)) : leaf ≠ .null := by
  induction path generalizing value with
  | nil =>
    cases hat
    rintro rfl
    cases hout
  | cons i path ih =>
    cases value with
    | obj members =>
      obtain ⟨member, hmember, hat⟩ := bind_eq_some_iff.mp hat
      refine ih hat ?_
      simpa only [redactLeaf, valueAt, redactLeafMembers_getElem?, hmember, map_some,
        bind_some] using hout
    | arr items =>
      obtain ⟨item, hitem, hat⟩ := bind_eq_some_iff.mp hat
      refine ih hat ?_
      simpa only [redactLeaf, valueAt, redactLeafItems_getElem?, hitem, map_some,
        bind_some] using hout
    | _ => cases hat

theorem redactInner_ne_null (hat : valueAt value path = some leaf)
    (hout : valueAt (redactInner redactText exempt bgp parentKey underBgp value) path =
      some (.str placeholderString)) : leaf ≠ .null := by
  induction path generalizing value parentKey underBgp with
  | nil =>
    cases hat
    rintro rfl
    cases hout
  | cons i path ih =>
    cases value with
    | obj members =>
      obtain ⟨member, hmember, hat⟩ := bind_eq_some_iff.mp hat
      simp only [redactInner, valueAt, redactMembers_getElem?, hmember, map_some,
        bind_some, redactMember] at hout
      split at hout
      · exact ih hat hout
      · split at hout
        · exact redactLeaf_ne_null hat hout
        · exact ih hat hout
    | arr items =>
      obtain ⟨item, hitem, hat⟩ := bind_eq_some_iff.mp hat
      simp only [redactInner, valueAt, redactItems_getElem?, hitem, map_some,
        bind_some] at hout
      exact ih hat hout
    | _ => cases hat

/-! ### Route communities and WEP keys after the withholding -/

theorem tag_of_isTagOrTags (h : isTagOrTags (redactWholesaleFields keys value) = true)
    (hat : valueAt value path = some leaf) (hscalar : isScalar leaf = true) :
    ∃ s, leaf = .str s ∧ isBgpCommunityTag s.toList = true := by
  have hstr : ∀ {s path}, isBgpCommunityTag s.toList = true →
      valueAt (.str s) path = some leaf → ∃ s, leaf = .str s ∧ isBgpCommunityTag s.toList := by
    intro s path htag hat
    cases path with
    | nil => exact ⟨s, (Option.some.inj hat).symm, htag⟩
    | cons i path => cases hat
  cases value with
  | str s => exact hstr h hat
  | arr items =>
    cases path with
    | nil =>
      cases hat
      cases hscalar
    | cons i path =>
      obtain ⟨item, hitem, hat⟩ := bind_eq_some_iff.mp hat
      simp only [redactWholesaleFields, isTagOrTags, Bool.and_eq_true, List.all_eq_true] at h
      have hplace : (redactWholesaleItems keys items)[i]? =
          some (redactWholesaleFields keys item) := by
        rw [redactWholesaleItems_getElem?, hitem]
        rfl
      have htag := h.2 _ (mem_of_getElem? hplace)
      cases item with
      | str s => exact hstr htag hat
      | _ => cases htag
  | _ => cases h

theorem tag_of_looksLikeBgpCommunityValue
    (h : looksLikeBgpCommunityValue (redactWholesaleFields keys value) = true)
    (hat : valueAt value path = some leaf) (hscalar : isScalar leaf = true) :
    ∃ s, leaf = .str s ∧ isBgpCommunityTag s.toList = true := by
  cases value with
  | obj members =>
    cases path with
    | nil =>
      cases hat
      cases hscalar
    | cons i path =>
      obtain ⟨member, hmember, hat⟩ := bind_eq_some_iff.mp hat
      simp only [redactWholesaleFields, looksLikeBgpCommunityValue, Bool.and_eq_true,
        List.all_eq_true] at h
      have hplace : (redactWholesaleMembers keys members)[i]? = some (member.1,
          if keys.contains (normalize member.1.toList) then withhold member.2
          else redactWholesaleFields keys member.2) := by
        rw [redactWholesaleMembers_getElem?, hmember]
        rfl
      have htag := (h.2 _ (mem_of_getElem? hplace)).2
      dsimp only at htag
      split at htag
      · -- the placeholder is not a tag, so nothing in the value was withheld
        have hfalse : isTagOrTags (withhold member.2) = false := by
          cases member.2 <;> rfl
        rw [hfalse] at htag
        cases htag
      · exact tag_of_isTagOrTags htag hat hscalar
  | _ =>
    refine @tag_of_isTagOrTags keys _ _ _ ?_ hat hscalar
    exact h

theorem siblingType_wholesale {members : List (String × Json)}
    (htype : keys.contains "type".toList = false) :
    siblingType (redactWholesaleMembers keys members) = siblingType members := by
  have hnormal : normalize "type".toList = "type".toList := by decide +kernel
  induction members with
  | nil => rfl
  | cons member members ih =>
    obtain ⟨key, value⟩ := member
    rw [redactWholesaleMembers]
    by_cases hkey : key = "type"
    · subst hkey
      have hstr : (redactWholesaleFields keys value).asStr = value.asStr := by
        cases value <;> rfl
      simp only [siblingType, lookup_cons_self, hnormal, htype, Bool.false_eq_true, if_false,
        bind_some, hstr]
    · have hne : ("type" == key) = false := by simpa using Ne.symm hkey
      simpa only [siblingType, lookup_cons, hne] using ih

/-! ### Nothing is uncovered -/

variable {key : String}

theorem redactMember_placeholder (hplaceholder : redactText placeholderString = placeholderString)
    {key : Text} : redactMember redactText exempt bgp parentKey sibling underBgp key
      (.str placeholderString) = .str placeholderString := by
  have hinner : ∀ parent under, redactInner redactText exempt bgp parent under
      (.str placeholderString) = .str placeholderString := by
    intro parent under
    rw [redactInner, hplaceholder, ite_self]
  unfold redactMember
  split
  · exact hinner _ _
  · split
    · rfl
    · exact hinner _ _

theorem secret_after_wholesale {key : Text}
    (hwep : keys.contains "type".toList = true → keys.contains "keys".toList = true)
    (hkey : ¬ keys.contains (normalize key) = true)
    (hsecret : (isDenylistedKey key || isWepKeysField key parentKey (siblingType members)) = true) :
    (isDenylistedKey key || isWepKeysField key parentKey
      (siblingType (redactWholesaleMembers keys members))) = true := by
  rcases Bool.or_eq_true_iff.mp hsecret with hdeny | hkeys
  · rw [hdeny, Bool.true_or]
  · have hname : normalize key = "keys".toList := by
      simp only [isWepKeysField, Bool.and_eq_true, beq_iff_eq] at hkeys
      exact hkeys.1
    have htype : keys.contains "type".toList = false := by
      rw [← Bool.not_eq_true]
      exact fun h => hkey (hname ▸ hwep h)
    rw [siblingType_wholesale htype]
    exact hsecret

/-- The value of a key the plain scan takes as secret: all its scalars are withheld, unless the key
is exempt or its value is taken for BGP communities. -/
theorem withheld_or_exempted_secret
    (hwep : keys.contains "type".toList = true → keys.contains "keys".toList = true)
    (hmember : members[i]? = some (key, value))
    (hwhole : ¬ keys.contains (normalize key.toList) = true)
    (hsecret : (isDenylistedKey key.toList ||
      isWepKeysField key.toList parentKey (siblingType members)) = true)
    (hat : valueAt value path = some leaf) (hscalar : isScalar leaf = true)
    (hforced : Withheld (redactLeaf (redactWholesaleFields keys value)) path) :
    Withheld (redactMember redactText exempt bgp parentKey
        (siblingType (redactWholesaleMembers keys members)) underBgp key.toList
        (redactWholesaleFields keys value)) path ∨
      Exempted exempt parentKey underBgp (.obj members) (i :: path) leaf := by
  by_cases hexempt : exempt.contains (normalize key.toList) = true
  · right
    left
    refine ⟨key.toList, ?_, hexempt⟩
    simp only [secretKey, hmember, bind_some, hsecret, if_true]
  · have hsecret' := secret_after_wholesale hwep hwhole hsecret
    rw [redactMember, if_neg hexempt]
    by_cases hbgp : (bgp && isBgpCommunityField key.toList underBgp &&
        looksLikeBgpCommunityValue (redactWholesaleFields keys value)) = true
    · right
      right
      simp only [Bool.and_eq_true] at hbgp
      refine ⟨?_, tag_of_looksLikeBgpCommunityValue hbgp.2 hat hscalar⟩
      simp only [belowBgpCommunity, hmember, any_some, hbgp.1.2, Bool.true_or]
    · left
      rw [Bool.not_eq_true] at hbgp
      simp only [isSecretMember, hsecret', hbgp, Bool.not_false, Bool.and_true, if_true]
      exact hforced

theorem withheld_or_exempted_plain {sibling : Option Text}
    (hmember : members[i]? = some (key, value)) (hsecret : ¬ (isDenylistedKey key.toList ||
      isWepKeysField key.toList parentKey (siblingType members)) = true)
    (hforced : Withheld (redactLeaf (redactWholesaleFields keys value)) path)
    (hbelow : Withheld (redactInner redactText exempt bgp (some key.toList)
        (underBgp || isBgpScopeKey key.toList) (redactWholesaleFields keys value)) path ∨
      Exempted exempt (some key.toList) (underBgp || isBgpScopeKey key.toList) value path leaf) :
    Withheld (redactMember redactText exempt bgp parentKey sibling underBgp key.toList
        (redactWholesaleFields keys value)) path ∨
      Exempted exempt parentKey underBgp (.obj members) (i :: path) leaf := by
  have hlift : Withheld (redactInner redactText exempt bgp (some key.toList)
      (underBgp || isBgpScopeKey key.toList) (redactWholesaleFields keys value)) path ∨
      Exempted exempt parentKey underBgp (.obj members) (i :: path) leaf := by
    refine hbelow.imp_right ?_
    rintro (⟨name, hname, hexempt⟩ | ⟨hcommunity, htag⟩)
    · refine Or.inl ⟨name, ?_, hexempt⟩
      simpa only [secretKey, hmember, bind_some, hsecret, Bool.false_eq_true,
        if_false] using hname
    · refine Or.inr ⟨?_, htag⟩
      simp [belowBgpCommunity, hmember, hcommunity]
  unfold redactMember
  split
  · exact hlift
  · split
    · exact Or.inl hforced
    · exact hlift

theorem withheld_or_exempted (hplaceholder : redactText placeholderString = placeholderString)
    (hwep : keys.contains "type".toList = true → keys.contains "keys".toList = true)
    (hat : valueAt value path = some leaf)
    (hscalar : isScalar leaf = true)
    (hout : valueAt (redactInner redactText [] false parentKey underBgp value) path =
      some (.str placeholderString)) :
    Withheld (redactInner redactText exempt bgp parentKey underBgp
      (redactWholesaleFields keys value)) path ∨
      Exempted exempt parentKey underBgp value path leaf := by
  have hleaf := redactInner_ne_null hat hout
  induction path generalizing value parentKey underBgp with
  | nil =>
    obtain rfl := Option.some.inj hat
    have hsame := Option.some.inj hout
    left
    cases value with
    | str s =>
      rw [redactInner] at hsame
      rw [redactWholesaleFields, redactInner, hsame]
      rfl
    | obj members => cases hscalar
    | arr items => cases hscalar
    | _ => cases hsame
  | cons i path ih =>
    cases value with
    | obj members =>
      obtain ⟨member, hmember, hat⟩ := bind_eq_some_iff.mp hat
      obtain ⟨key, value⟩ := member
      simp only [redactInner, valueAt, redactMembers_getElem?, hmember, map_some,
        bind_some] at hout
      have hplace : (redactMembers redactText exempt bgp parentKey
          (siblingType (redactWholesaleMembers keys members)) underBgp
          (redactWholesaleMembers keys members))[i]? = some (key,
            redactMember redactText exempt bgp parentKey
              (siblingType (redactWholesaleMembers keys members)) underBgp key.toList
              (if keys.contains (normalize key.toList) then withhold value
                else redactWholesaleFields keys value)) := by
        rw [redactMembers_getElem?, redactWholesaleMembers_getElem?, hmember]
        rfl
      have hforced : Withheld (redactLeaf (redactWholesaleFields keys value)) path :=
        withheld_redactLeaf hat hscalar hleaf
      by_cases hwhole : keys.contains (normalize key.toList) = true
      · left
        rw [if_pos hwhole, withhold_eq hat hleaf, redactMember_placeholder hplaceholder] at hplace
        exact ⟨_, hplace, withheld_placeholder path⟩
      · rw [if_neg hwhole] at hplace
        by_cases hsecret : (isDenylistedKey key.toList ||
            isWepKeysField key.toList parentKey (siblingType members)) = true
        · exact (withheld_or_exempted_secret hwep hmember hwhole hsecret hat hscalar
            hforced).imp_left fun h => ⟨_, hplace, h⟩
        · have hplain : valueAt (redactInner redactText [] false (some key.toList)
              (underBgp || isBgpScopeKey key.toList) value) path =
                some (.str placeholderString) := by
            simpa [redactMember, isSecretMember, hsecret] using hout
          exact (withheld_or_exempted_plain hmember hsecret hforced
            (ih hat hplain)).imp_left fun h => ⟨_, hplace, h⟩
    | arr items =>
      obtain ⟨item, hitem, hat⟩ := bind_eq_some_iff.mp hat
      simp only [redactInner, valueAt, redactItems_getElem?, hitem, map_some,
        bind_some] at hout
      have hplace : (redactItems redactText exempt bgp parentKey underBgp
          (redactWholesaleItems keys items))[i]? =
          some (redactInner redactText exempt bgp parentKey underBgp
            (redactWholesaleFields keys item)) := by
        rw [redactItems_getElem?, redactWholesaleItems_getElem?, hitem]
        rfl
      refine (ih hat hout).imp (fun h => ⟨_, hplace, h⟩) fun h => ?_
      simpa only [Exempted, secretKey, belowBgpCommunity, hitem, bind_some,
        any_some] using h
    | _ => cases hat

/-- WEP keys, recognised by the `type` beside them. -/
def wepKeys : Json := .obj [("type", .str "wep"), ("keys", .str "a")]

-- The evaluations the results below rest on.
theorem wepKeys_evaluated :
    redactString placeholderString = placeholderString ∧
    (normalize "type".toList = "type".toList ∧ normalize "keys".toList = "keys".toList) ∧
    (isDenylistedKey "keys".toList || isWepKeysField "keys".toList none
      (some placeholderString.toList)) = false ∧
    (looksLikeSecretValue "a".toList = false ∧ redactString "a" = "a") ∧
    isSecretMember false none (some "wep".toList) false "keys".toList (.str "a") = true ∧
    (secretKey none wepKeys [1] = some "keys".toList ∧
      belowBgpCommunity false wepKeys [1] = false) ∧
    isDenylistTerm "keys".toList = true := by decide +kernel

variable {profile : Profile}

theorem wepKeys_uncovered (htype : profile.wholesaleRedactKeys.contains "type".toList = true)
    (hkeys : profile.wholesaleRedactKeys.contains "keys".toList = false)
    (hexempt : profile.keyExemptions.contains "keys".toList = false) :
    redactJsonWithProfile redactString profile wepKeys =
      .obj [("type", .str placeholderString), ("keys", .str "a")] := by
  obtain ⟨hplaceholder, hnormal, hname, ⟨hshape, htext⟩, -⟩ := wepKeys_evaluated
  have hwhole : redactWholesaleFields profile.wholesaleRedactKeys wepKeys =
      .obj [("type", .str placeholderString), ("keys", .str "a")] := by
    simp only [wepKeys, redactWholesaleFields, redactWholesaleMembers, hnormal.1, hnormal.2, htype,
      hkeys, if_true, Bool.false_eq_true, if_false, withhold]
  -- the withheld `type` no longer says `wep`
  have hsecret : isSecretMember profile.bgpRouteCommunities none (some placeholderString.toList)
      false "keys".toList (.str "a") = false := by
    rw [isSecretMember, hname, Bool.false_and]
  have hkept : redactMember redactString profile.keyExemptions profile.bgpRouteCommunities none
      (some placeholderString.toList) false "keys".toList (.str "a") = .str "a" := by
    rw [redactMember, hnormal.2, hexempt, hsecret]
    simp only [Bool.false_eq_true, if_false, redactInner, hshape, htext]
  have htypeKept : redactMember redactString profile.keyExemptions profile.bgpRouteCommunities none
      (some placeholderString.toList) false "type".toList (.str placeholderString) =
      .str placeholderString := redactMember_placeholder hplaceholder
  have hmembers : redactInner redactString profile.keyExemptions profile.bgpRouteCommunities none
      false (.obj [("type", .str placeholderString), ("keys", .str "a")]) =
      .obj [("type", redactMember redactString profile.keyExemptions profile.bgpRouteCommunities
          none (some placeholderString.toList) false "type".toList (.str placeholderString)),
        ("keys", redactMember redactString profile.keyExemptions profile.bgpRouteCommunities none
          (some placeholderString.toList) false "keys".toList (.str "a"))] := rfl
  rw [redactJsonWithProfile, hwhole, hmembers, htypeKept, hkept]

theorem not_exempt_of_checked (h : profile.checkExemptions = .ok ()) {entry : Text}
    (hterm : isDenylistTerm entry = true) :
    profile.keyExemptions.contains entry = false := by
  rw [← Bool.not_eq_true, contains_iff_mem]
  intro hmem
  unfold Profile.checkExemptions at h
  cases hfind : profile.keyExemptions.find? isDenylistTerm with
  | some exemption =>
    rw [hfind] at h
    cases h
  | none => exact find?_eq_none.mp hfind entry hmem hterm

theorem wepKeys_replaced : valueAt (redactJson redactString wepKeys) [1] =
    some (.str placeholderString) := by
  obtain ⟨-, -, -, -, hsecret, -⟩ := wepKeys_evaluated
  have hplace : (redactMembers redactString [] false none (some "wep".toList) false
      [("type", .str "wep"), ("keys", .str "a")])[1]? = some ("keys", .str placeholderString) := by
    rw [redactMembers_getElem?]
    simp only [getElem?_cons_succ, getElem?_cons_zero, map_some, redactMember,
      contains_nil, Bool.false_eq_true, if_false, hsecret, if_true, redactLeaf]
  exact bind_eq_some_iff.mpr ⟨_, hplace, rfl⟩

theorem not_uncoversNothing_wepKeys
    (htype : profile.wholesaleRedactKeys.contains "type".toList = true)
    (hkeys : profile.wholesaleRedactKeys.contains "keys".toList = false)
    (hexempt : profile.keyExemptions.contains "keys".toList = false) :
    ¬ UncoversNothing profile wepKeys := by
  intro huncovers
  obtain ⟨-, hnormal, -, -, -, ⟨hname, hnot⟩, -⟩ := wepKeys_evaluated
  rcases huncovers [1] (.str "a") rfl rfl wepKeys_replaced with hwithheld | hexempted
  · rw [wepKeys_uncovered htype hkeys hexempt] at hwithheld
    obtain ⟨member, hmember, hvalue⟩ := hwithheld
    cases hmember
    exact absurd (show "a" = placeholderString from hvalue) (by decide)
  · rcases hexempted with ⟨key, hkey, hcontains⟩ | ⟨hbelow, -⟩
    · cases hname.symm.trans hkey
      rw [hnormal.2, hexempt] at hcontains
      cases hcontains
    · rw [hnot] at hbelow
      cases hbelow

/-- For every profile that passes its check of exemptions: nothing but the exemptions is uncovered,
in any value, exactly if `keys` is withheld whenever `type` is. -/
theorem profile_uncovers_nothing_iff (profile : Profile)
    (hprofile : profile.checkExemptions = .ok ()) :
    (∀ value, UncoversNothing profile value) ↔
      (profile.wholesaleRedactKeys.contains "type".toList = true →
        profile.wholesaleRedactKeys.contains "keys".toList = true) := by
  constructor
  · intro huncovers htype
    by_contra hkeys
    rw [Bool.not_eq_true] at hkeys
    exact not_uncoversNothing_wepKeys htype hkeys
      (not_exempt_of_checked hprofile wepKeys_evaluated.2.2.2.2.2.2) (huncovers wepKeys)
  · intro hwep value path leaf hat hscalar hout
    exact withheld_or_exempted wepKeys_evaluated.1 hwep hat hscalar hout

/-- A profile that withholds bodies and exempts a paging cursor. -/
def bodyProfile : Profile :=
  ⟨["siteconfig".toList], ["continuationtoken".toList], true, by decide +kernel⟩

theorem bodyProfile_uncovers_nothing :
    bodyProfile.checkExemptions = .ok () ∧ ∀ value, UncoversNothing bodyProfile value := by
  have hchecked : bodyProfile.checkExemptions = .ok () := rfl
  exact ⟨hchecked, (profile_uncovers_nothing_iff bodyProfile hchecked).mpr fun h => by cases h⟩

def typeProfile : Profile := ⟨["type".toList], [], false, by decide +kernel⟩

/-- The profile is accepted, and leaves the keys of a WEP network as they are. -/
theorem typeProfile_uncovers_wep_keys :
    typeProfile.checkExemptions = .ok () ∧
    valueAt (redactJson redactString wepKeys) [1] = some (.str placeholderString) ∧
    redactJsonWithProfile redactString typeProfile wepKeys =
      .obj [("type", .str placeholderString), ("keys", .str "a")] ∧
    ¬ UncoversNothing typeProfile wepKeys := by
  have htype : typeProfile.wholesaleRedactKeys.contains "type".toList = true := rfl
  have hkeys : typeProfile.wholesaleRedactKeys.contains "keys".toList = false := rfl
  exact ⟨rfl, wepKeys_replaced, wepKeys_uncovered htype hkeys rfl,
    not_uncoversNothing_wepKeys htype hkeys rfl⟩

end Mecmcp.Redact
