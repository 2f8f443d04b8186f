import Mecmcp.Lib.Json

/-!
# JsonText — compact JSON text

The compact text of a document, over any way of writing its strings and numbers that a reader can
take apart again (`Printer`).  `Printer.render_ends`: where the text of a document ends can be seen
in whatever it stands in front of, so the text determines the document (`Printer.render_injective`).
-/

namespace Mecmcp

open List

/-- The bytes a JSON number is written with: digits, `+`, `-`, `.`, `E` and `e`. -/
def isNumberByte (byte : UInt8) : Bool :=
  (48 ≤ byte.toNat && byte.toNat ≤ 57) || byte == 43 || byte == 45 || byte == 46 || byte == 69 ||
    byte == 101

/-- How strings and numbers are written. -/
structure Printer where
  string : String → List UInt8
  /-- A string literal starts with a quote. -/
  string_head : ∀ s, ∃ rest, string s = 34 :: rest
  string_ends : ∀ s t x y, string s ++ x = string t ++ y → s = t ∧ x = y
  number : Number → List UInt8
  number_ne_nil : ∀ n, number n ≠ []
  number_bytes : ∀ n, ∀ b ∈ number n, isNumberByte b = true
  number_injective : Function.Injective number

namespace Printer

mutual
/-- The text of a document, members in the order they have. -/
def render (P : Printer) : Json → List UInt8
  | .null => [110, 117, 108, 108]
  | .bool true => [116, 114, 117, 101]
  | .bool false => [102, 97, 108, 115, 101]
  | .num n => P.number n
  | .str s => P.string s
  | .arr items => 91 :: (P.renderItems true items ++ [93])
  | .obj fields => 123 :: (P.renderFields true fields ++ [125])

/-- The items of an array, after the first with a comma before them. -/
def renderItems (P : Printer) : (first : Bool) → List Json → List UInt8
  | _, [] => []
  | first, j :: js => (if first then [] else [44]) ++ (P.render j ++ P.renderItems false js)

/-- The members of an object, after the first with a comma before them. -/
def renderFields (P : Printer) : (first : Bool) → List (String × Json) → List UInt8
  | _, [] => []
  | first, (k, j) :: fs =>
    (if first then [] else [44]) ++ (P.string k ++ 58 :: (P.render j ++ P.renderFields false fs))
end

variable {P : Printer}
variable {x y : List UInt8} {j : Json} {first : Bool}

def Ends (text : List UInt8) : Prop := ∀ b, text.head? = some b → isNumberByte b = false

theorem ends_nil : Ends [] := fun b h => by cases h

theorem ends_cons {b : UInt8} {text : List UInt8} (h : isNumberByte b = false) :
    Ends (b :: text) := by
  intro b' hb
  obtain rfl := Option.some.inj hb
  exact h

theorem number_ends {n m : Number} (hx : Ends x) (hy : Ends y)
    (h : P.number n ++ x = P.number m ++ y) : n = m ∧ x = y := by
  have htake : ∀ {n : Number} {x : List UInt8}, Ends x →
      (P.number n ++ x).takeWhile isNumberByte = P.number n := by
    intro n x hx
    rw [takeWhile_append_of_pos (P.number_bytes n)]
    cases x with
    | nil => simp
    | cons b x => simp [hx b rfl]
  have hnum : P.number n = P.number m := by rw [← htake hx, h, htake hy]
  refine ⟨P.number_injective hnum, ?_⟩
  rw [hnum] at h
  exact append_cancel_left h

/-- The first byte of a text, with one value for all bytes a number starts with. -/
def kindOf (byte : UInt8) : ℕ := if isNumberByte byte then 0 else byte.toNat

/-- The kind of a document, as its first byte shows it. -/
def kind : Json → ℕ
  | .null => 110
  | .bool b => if b then 116 else 102
  | .num _ => 0
  | .str _ => 34
  | .arr _ => 91
  | .obj _ => 123

theorem render_head (j : Json) : ∃ b rest, P.render j = b :: rest ∧ kindOf b = kind j := by
  match j with
  | .null => exact ⟨_, _, rfl, rfl⟩
  | .bool true => exact ⟨_, _, rfl, rfl⟩
  | .bool false => exact ⟨_, _, rfl, rfl⟩
  | .num n =>
    obtain ⟨b, rest, h⟩ := exists_cons_of_ne_nil (P.number_ne_nil n)
    exact ⟨b, rest, h, if_pos (P.number_bytes n b (by simp [h]))⟩
  | .str s =>
    obtain ⟨rest, h⟩ := P.string_head s
    exact ⟨34, rest, h, rfl⟩
  | .arr items => exact ⟨_, _, rfl, rfl⟩
  | .obj fields => exact ⟨_, _, rfl, rfl⟩

theorem kind_ne_close (j : Json) : kind j ≠ kindOf 93 := by
  have hclose : kindOf 93 = 93 := by decide
  rw [hclose]
  rcases j with _ | (_ | _) | _ | _ | _ | _ <;> simp [kind]

theorem kind_eq_of_render {j' : Json} (h : P.render j ++ x = P.render j' ++ y) :
    kind j = kind j' := by
  obtain ⟨b, rest, hrender, hkind⟩ := @render_head P j
  obtain ⟨b', rest', hrender', hkind'⟩ := @render_head P j'
  rw [hrender, hrender'] at h
  rw [← hkind, ← hkind', (List.cons.inj h).1]

theorem ends_items (js : List Json) (x : List UInt8) :
    Ends (P.renderItems false js ++ 93 :: x) := by
  cases js with
  | nil | cons => exact ends_cons (by decide)

theorem ends_fields (fs : List (String × Json)) (x : List UInt8) :
    Ends (P.renderFields false fs ++ 125 :: x) := by
  cases fs with
  | nil | cons => exact ends_cons (by decide)

theorem renderItems_cons_ne {js : List Json} :
    93 :: x ≠ P.renderItems first (j :: js) ++ y := by
  obtain ⟨b, rest, hrender, hkind⟩ := @render_head P j
  intro h
  rw [renderItems, hrender] at h
  cases first with
  | true =>
    rw [← (List.cons.inj h).1] at hkind
    exact kind_ne_close j hkind.symm
  | false => exact absurd (List.cons.inj h).1 (by decide)

theorem renderFields_cons_ne {f : String × Json} {fs : List (String × Json)} :
    125 :: x ≠ P.renderFields first (f :: fs) ++ y := by
  obtain ⟨rest, hkey⟩ := P.string_head f.1
  intro h
  rw [renderFields, hkey] at h
  cases first <;> exact absurd (List.cons.inj h).1 (by decide)

mutual
/-- **The end of a document can be seen in the text.** -/
theorem render_ends : ∀ (j j' : Json) {x y : List UInt8}, Ends x → Ends y →
    P.render j ++ x = P.render j' ++ y → j = j' ∧ x = y := by
  intro j j' x y hx hy h
  have hkind := kind_eq_of_render h
  -- texts of different kinds start with different bytes
  rcases j with _ | (_ | _) | n | s | items | fields <;>
    rcases j' with _ | (_ | _) | m | t | items' | fields' <;>
    first
      | (simp [kind] at hkind; done)
      | exact ⟨rfl, append_cancel_left h⟩
      | skip
  · obtain ⟨rfl, hrest⟩ := number_ends hx hy h
    exact ⟨rfl, hrest⟩
  · obtain ⟨rfl, hrest⟩ := P.string_ends s t x y h
    exact ⟨rfl, hrest⟩
  · obtain ⟨rfl, hrest⟩ := renderItems_ends items items' true (by simpa [render] using h)
    exact ⟨rfl, hrest⟩
  · obtain ⟨rfl, hrest⟩ := renderFields_ends fields fields' true (by simpa [render] using h)
    exact ⟨rfl, hrest⟩

theorem renderItems_ends : ∀ (js js' : List Json) (first : Bool) {x y : List UInt8},
    P.renderItems first js ++ 93 :: x = P.renderItems first js' ++ 93 :: y → js = js' ∧ x = y
  | [], [], _, x, y => fun h => ⟨rfl, (List.cons.inj h).2⟩
  | [], j' :: js', first, x, y => fun h => absurd h renderItems_cons_ne
  | j :: js, [], first, x, y => fun h => absurd h.symm renderItems_cons_ne
  | j :: js, j' :: js', first, x, y => by
    intro h
    simp only [renderItems, List.append_assoc, List.append_cancel_left_eq] at h
    obtain ⟨rfl, hrest⟩ := render_ends j j' (ends_items js x) (ends_items js' y) h
    obtain ⟨rfl, hx⟩ := renderItems_ends js js' false hrest
    exact ⟨rfl, hx⟩

theorem renderFields_ends : ∀ (fs fs' : List (String × Json)) (first : Bool) {x y : List UInt8},
    P.renderFields first fs ++ 125 :: x = P.renderFields first fs' ++ 125 :: y → fs = fs' ∧ x = y
  | [], [], _, x, y => fun h => ⟨rfl, (List.cons.inj h).2⟩
  | [], f' :: fs', first, x, y => fun h => absurd h renderFields_cons_ne
  | f :: fs, [], first, x, y => fun h => absurd h.symm renderFields_cons_ne
  | (k, j) :: fs, (k', j') :: fs', first, x, y => by
    intro h
    simp only [renderFields, List.append_assoc, List.cons_append,
      List.append_cancel_left_eq] at h
    obtain ⟨rfl, hvalue⟩ := P.string_ends k k' _ _ h
    obtain ⟨rfl, hrest⟩ := render_ends j j' (ends_fields fs x) (ends_fields fs' y)
      (List.cons.inj hvalue).2
    obtain ⟨rfl, hx⟩ := renderFields_ends fs fs' false hrest
    exact ⟨rfl, hx⟩
end

theorem render_injective : Function.Injective P.render := by
  intro j j' h
  exact (render_ends j j' ends_nil ends_nil (by rw [h])).1

end Printer

end Mecmcp
