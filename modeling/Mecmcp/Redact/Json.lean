import Mecmcp.Lib.Json
import Mecmcp.Redact.Denylist

/-!
# Json — redaction of parsed JSON

`json.rs`.  Below a secret name every scalar becomes the placeholder and the structure stays;
elsewhere strings go through the shape check and the text redaction, which is the parameter
`redactText` here.

Two values `Agree` if they differ only in scalars below secret names; redaction maps them to the same
value.
-/

namespace Mecmcp.Redact

def placeholderString : String := "[REDACTED]"

/-! ### BGP route communities -/

def isBgpScopeKey (key : Text) : Bool := normalize key == "bgp".toList

def isBgpCommunityField (key : Text) (underBgpScope : Bool) : Bool :=
  underBgpScope && normalize key == "community".toList

def wellKnownCommunities : List String :=
  ["no-export", "no-advertise", "no-peer", "no-export-subconfed", "local-as", "internet"]

/-- Two or three numbers with colons between them, or a well-known name. -/
def isBgpCommunityTag (text : Text) : Bool :=
  let parts := text.splitOn ':'
  wellKnownCommunities.any (fun name => eqIgnoreAsciiCase text name.toList) ||
    ((parts.length == 2 || parts.length == 3) && parts.all fun part =>
      !part.isEmpty && part.all fun c => 48 ≤ c.toNat && c.toNat ≤ 57)

def isTagOrTags : Json → Bool
  | .str s => isBgpCommunityTag s.toList
  | .arr items => !items.isEmpty && items.all fun
      | .str s => isBgpCommunityTag s.toList
      | _ => false
  | _ => false

def looksLikeBgpCommunityValue : Json → Bool
  | .obj members => !members.isEmpty && members.all fun m =>
      (normalize m.1.toList == "member".toList || normalize m.1.toList == "members".toList) &&
        isTagOrTags m.2
  | value => isTagOrTags value

/-! ### Redaction -/

mutual
/-- The value of a secret name: every scalar but null becomes the placeholder. -/
def redactLeaf : Json → Json
  | .obj members => .obj (redactLeafMembers members)
  | .arr items => .arr (redactLeafItems items)
  | .null => .null
  | _ => .str placeholderString

def redactLeafMembers : List (String × Json) → List (String × Json)
  | [] => []
  | (key, value) :: members => (key, redactLeaf value) :: redactLeafMembers members

def redactLeafItems : List Json → List Json
  | [] => []
  | value :: items => redactLeaf value :: redactLeafItems items
end

/-- The string under `type` in the same object. -/
def siblingType (members : List (String × Json)) : Option Text :=
  ((members.lookup "type").bind Json.asStr).map String.toList

def isSecretMember (bgpRouteCommunities : Bool) (parentKey sibling : Option Text)
    (underBgp : Bool) (key : Text) (value : Json) : Bool :=
  (isDenylistedKey key || isWepKeysField key parentKey sibling) &&
    !(bgpRouteCommunities && isBgpCommunityField key underBgp && looksLikeBgpCommunityValue value)

variable (redactText : String → String) (exempt : List Text) (bgpRouteCommunities : Bool)

mutual
/-- `redact_inner`; `parentKey` is the key the value was found under. -/
def redactInner (parentKey : Option Text) (underBgp : Bool) : Json → Json
  | .obj members => .obj (redactMembers parentKey (siblingType members) underBgp members)
  | .arr items => .arr (redactItems parentKey underBgp items)
  | .str s =>
    if looksLikeSecretValue s.toList then .str placeholderString else .str (redactText s)
  | .null => .null
  | .bool b => .bool b
  | .num n => .num n

/-- The members of one object, with its `type`. -/
def redactMembers (parentKey sibling : Option Text) (underBgp : Bool) :
    List (String × Json) → List (String × Json)
  | [] => []
  | (key, value) :: members =>
    (key,
      if exempt.contains (normalize key.toList) then
        redactInner (some key.toList) (underBgp || isBgpScopeKey key.toList) value
      else if isSecretMember bgpRouteCommunities parentKey sibling underBgp key.toList value then
        redactLeaf value
      else redactInner (some key.toList) (underBgp || isBgpScopeKey key.toList) value) ::
      redactMembers parentKey sibling underBgp members

def redactItems (parentKey : Option Text) (underBgp : Bool) : List Json → List Json
  | [] => []
  | value :: items => redactInner parentKey underBgp value :: redactItems parentKey underBgp items
end

/-- `json::redact`. -/
def redactJson (value : Json) : Json := redactInner redactText [] false none false value

/-! ### Two values that differ below secret names -/

mutual
/-- Null at the same places, other scalars at the same places, the same keys and lengths. -/
def SameShape : Json → Json → Prop
  | .obj members, w => ∃ members', w = .obj members' ∧ SameShapeMembers members members'
  | .arr items, w => ∃ items', w = .arr items' ∧ SameShapeItems items items'
  | .null, w => w = .null
  | _, w => w ≠ .null ∧ Json.asObject w = none ∧ Json.asArray w = none

def SameShapeMembers : List (String × Json) → List (String × Json) → Prop
  | [], members' => members' = []
  | (key, value) :: members, members' => ∃ value' rest,
      members' = (key, value') :: rest ∧ SameShape value value' ∧ SameShapeMembers members rest

def SameShapeItems : List Json → List Json → Prop
  | [], items' => items' = []
  | value :: items, items' => ∃ value' rest,
      items' = value' :: rest ∧ SameShape value value' ∧ SameShapeItems items rest
end

def SecretInBoth (parentKey sibling sibling' : Option Text) (key : String) : Prop :=
  isDenylistedKey key.toList = true ∨ (isWepKeysField key.toList parentKey sibling = true ∧
    isWepKeysField key.toList parentKey sibling' = true)

mutual
/-- Equal but for non-null scalars below a secret name. -/
def Agree (parentKey : Option Text) : Json → Json → Prop
  | .obj members, w => ∃ members', w = .obj members' ∧
      AgreeMembers parentKey (siblingType members) (siblingType members') members members'
  | .arr items, w => ∃ items', w = .arr items' ∧ AgreeItems parentKey items items'
  | value, w => w = value

def AgreeMembers (parentKey sibling sibling' : Option Text) :
    List (String × Json) → List (String × Json) → Prop
  | [], members' => members' = []
  | (key, value) :: members, members' => ∃ value' rest, members' = (key, value') :: rest ∧
      (Agree (some key.toList) value value' ∨
        (SecretInBoth parentKey sibling sibling' key ∧ SameShape value value')) ∧
      AgreeMembers parentKey sibling sibling' members rest

def AgreeItems (parentKey : Option Text) : List Json → List Json → Prop
  | [], items' => items' = []
  | value :: items, items' => ∃ value' rest, items' = value' :: rest ∧
      Agree parentKey value value' ∧ AgreeItems parentKey items rest
end

/-! ### Redaction does not tell them apart -/

mutual
theorem redactLeaf_eq : ∀ v w : Json, SameShape v w → redactLeaf v = redactLeaf w
  | .null, w, h => by rw [show w = .null from h]
  | .bool _, w, h | .num _, w, h | .str _, w, h => by
    obtain ⟨hnull, hobj, harr⟩ := h
    cases w <;> simp_all [redactLeaf, Json.asObject, Json.asArray]
  | .obj members, w, h => by
    obtain ⟨members', rfl, hmembers⟩ := h
    rw [redactLeaf, redactLeaf, redactLeafMembers_eq members members' hmembers]
  | .arr items, w, h => by
    obtain ⟨items', rfl, hitems⟩ := h
    rw [redactLeaf, redactLeaf, redactLeafItems_eq items items' hitems]

theorem redactLeafMembers_eq : ∀ m m' : List (String × Json), SameShapeMembers m m' →
    redactLeafMembers m = redactLeafMembers m'
  | [], m', h => by rw [show m' = [] from h]
  | (key, value) :: m, m', h => by
    obtain ⟨value', rest, rfl, hvalue, hrest⟩ := h
    rw [redactLeafMembers, redactLeafMembers, redactLeaf_eq value value' hvalue,
      redactLeafMembers_eq m rest hrest]

theorem redactLeafItems_eq : ∀ xs ys : List Json, SameShapeItems xs ys →
    redactLeafItems xs = redactLeafItems ys
  | [], ys, h => by rw [show ys = [] from h]
  | x :: xs, ys, h => by
    obtain ⟨y, rest, rfl, hx, hrest⟩ := h
    rw [redactLeafItems, redactLeafItems, redactLeaf_eq x y hx, redactLeafItems_eq xs rest hrest]
end

mutual
theorem sameShape_of_agree : ∀ (parentKey : Option Text) (v w : Json), Agree parentKey v w →
    SameShape v w
  | _, .null, w, h => h
  | _, .bool _, w, h | _, .num _, w, h | _, .str _, w, h => by
    have hw : w = _ := h
    rw [hw]
    simp [SameShape, Json.asObject, Json.asArray]
  | _, .obj members, w, h => by
    obtain ⟨members', rfl, hmembers⟩ := h
    exact ⟨members', rfl, sameShapeMembers_of_agree _ _ _ members members' hmembers⟩
  | parentKey, .arr items, w, h => by
    obtain ⟨items', rfl, hitems⟩ := h
    exact ⟨items', rfl, sameShapeItems_of_agree parentKey items items' hitems⟩

theorem sameShapeMembers_of_agree : ∀ (parentKey sibling sibling' : Option Text)
    (m m' : List (String × Json)), AgreeMembers parentKey sibling sibling' m m' →
    SameShapeMembers m m'
  | _, _, _, [], m', h => h
  | parentKey, sibling, sibling', (key, value) :: m, m', h => by
    obtain ⟨value', rest, rfl, hvalue, hrest⟩ := h
    refine ⟨value', rest, rfl, ?_, sameShapeMembers_of_agree _ _ _ m rest hrest⟩
    rcases hvalue with hagree | ⟨-, hshape⟩
    · exact sameShape_of_agree _ value value' hagree
    · exact hshape

theorem sameShapeItems_of_agree : ∀ (parentKey : Option Text) (xs ys : List Json),
    AgreeItems parentKey xs ys → SameShapeItems xs ys
  | _, [], ys, h => h
  | parentKey, x :: xs, ys, h => by
    obtain ⟨y, rest, rfl, hx, hrest⟩ := h
    exact ⟨y, rest, rfl, sameShape_of_agree _ x y hx, sameShapeItems_of_agree _ xs rest hrest⟩
end

theorem asStr_eq_of_agree {parentKey : Option Text} {v w : Json} (h : Agree parentKey v w) :
    Json.asStr v = Json.asStr w := by
  cases v with
  | obj members =>
    obtain ⟨members', rfl, -⟩ := h
    rfl
  | arr items =>
    obtain ⟨items', rfl, -⟩ := h
    rfl
  | _ =>
    have hw : w = _ := h
    rw [hw]

theorem siblingType_eq {parentKey sibling sibling' : Option Text} {m m' : List (String × Json)}
    (h : AgreeMembers parentKey sibling sibling' m m') : siblingType m = siblingType m' := by
  induction m generalizing m' with
  | nil => rw [show m' = [] from h]
  | cons member m ih =>
    obtain ⟨key, value⟩ := member
    obtain ⟨value', rest, rfl, hvalue, hrest⟩ := h
    have htail := ih hrest
    by_cases hkey : key = "type"
    · subst hkey
      have hagree : Json.asStr value = Json.asStr value' := by
        rcases hvalue with hagree | ⟨hsecret, -⟩
        · exact asStr_eq_of_agree hagree
        · have hplain : isDenylistedKey "type".toList = false ∧
              (normalize "type".toList == "keys".toList) = false := by decide
          simp only [SecretInBoth, isWepKeysField, hplain.1, hplain.2, Bool.false_and,
            Bool.false_eq_true, false_and, or_false] at hsecret
      simp [siblingType, hagree]
    · have hne : ("type" == key) = false := by simpa using Ne.symm hkey
      simpa [siblingType, List.lookup_cons, hne] using htail

variable {redactText : String → String}

mutual
theorem redactInner_eq : ∀ (parentKey : Option Text) (underBgp : Bool) (v w : Json),
    Agree parentKey v w → redactInner redactText [] false parentKey underBgp v =
      redactInner redactText [] false parentKey underBgp w
  | _, _, .null, w, h | _, _, .bool _, w, h | _, _, .num _, w, h | _, _, .str _, w, h => by
    have hw : w = _ := h
    rw [hw]
  | parentKey, underBgp, .obj members, w, h => by
    obtain ⟨members', rfl, hmembers⟩ := h
    rw [redactInner, redactInner, ← siblingType_eq hmembers]
    rw [← siblingType_eq hmembers] at hmembers
    rw [redactMembers_eq parentKey _ underBgp members members' hmembers]
  | parentKey, underBgp, .arr items, w, h => by
    obtain ⟨items', rfl, hitems⟩ := h
    rw [redactInner, redactInner, redactItems_eq parentKey underBgp items items' hitems]

theorem redactMembers_eq : ∀ (parentKey sibling : Option Text) (underBgp : Bool)
    (m m' : List (String × Json)), AgreeMembers parentKey sibling sibling m m' →
    redactMembers redactText [] false parentKey sibling underBgp m =
      redactMembers redactText [] false parentKey sibling underBgp m'
  | _, _, _, [], m', h => by rw [show m' = [] from h]
  | parentKey, sibling, underBgp, (key, value) :: m, m', h => by
    obtain ⟨value', rest, rfl, hvalue, hrest⟩ := h
    rw [redactMembers, redactMembers, redactMembers_eq parentKey sibling underBgp m rest hrest]
    have hsecret : ∀ x, isSecretMember false parentKey sibling underBgp key.toList x =
        (isDenylistedKey key.toList || isWepKeysField key.toList parentKey sibling) := by
      intro x
      simp [isSecretMember]
    simp only [hsecret, List.contains_nil, Bool.false_eq_true, if_false]
    rcases hvalue with hagree | ⟨hboth, hshape⟩
    · rw [redactLeaf_eq value value' (sameShape_of_agree _ value value' hagree),
        redactInner_eq _ _ value value' hagree]
    · have hname : (isDenylistedKey key.toList ||
          isWepKeysField key.toList parentKey sibling) = true := by
        rcases hboth with hdeny | ⟨hwep, -⟩
        · rw [hdeny, Bool.true_or]
        · rw [hwep, Bool.or_true]
      rw [if_pos hname, if_pos hname, redactLeaf_eq value value' hshape]

theorem redactItems_eq : ∀ (parentKey : Option Text) (underBgp : Bool) (xs ys : List Json),
    AgreeItems parentKey xs ys → redactItems redactText [] false parentKey underBgp xs =
      redactItems redactText [] false parentKey underBgp ys
  | _, _, [], ys, h => by rw [show ys = [] from h]
  | parentKey, underBgp, x :: xs, ys, h => by
    obtain ⟨y, rest, rfl, hx, hrest⟩ := h
    rw [redactItems, redactItems, redactInner_eq _ _ x y hx, redactItems_eq _ _ xs rest hrest]
end

theorem redactJson_eq_of_agree {v w : Json} (h : Agree none v w) :
    redactJson redactText v = redactJson redactText w := redactInner_eq none false v w h

end Mecmcp.Redact
