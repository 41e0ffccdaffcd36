/-
Texts, as lists of code points.

# Code points

Most texts are characters and nothing else. But a JSON string can name half
of a surrogate pair by an escape, and such a half is no character, although
it is kept, has the length of one character, and has its place in the order
of code points. So a code point is a character or a surrogate, and a text is
a list of code points.

# Characters in texts

A character counts as a code point and a string literal as a text, so that
patterns and tables are written in plain characters. Characters are compared
by their numbers, and so are surrogates, which lie between two ranges of
characters.

# Pairs

The two halves of a pair are joined only where a text is read from units of
16 bits or from escapes. Two halves that meet because texts are put together
stay two code points.
-/

namespace Spreadsheet

/-- A code point: a character, or the surrogate at a distance from
U+D800. -/
inductive CodePoint where
  | char (c : Char)
  | surrogate (n : Fin 2048)
deriving DecidableEq, Repr

instance : Coe Char CodePoint := ⟨.char⟩

namespace CodePoint

-- ====================================================== numbers of code points

/-- The number of a code point. -/
def code : CodePoint → Nat
  | char c => c.toNat
  | surrogate n => 0xD800 + n.val

/-- The code point of a number; a number that is too large gives the
null character. -/
def ofNat (n : Nat) : CodePoint :=
  if n < 0xD800 then char (Char.ofNat n)
  else if h : n - 0xD800 < 2048 then surrogate ⟨n - 0xD800, h⟩
  else char (Char.ofNat n)

/-- Is the code point in the closed range from one character to
another? -/
def within (c : CodePoint) (first last : Char) : Bool :=
  decide (first.toNat ≤ c.code) && decide (c.code ≤ last.toNat)

/-- No character has the number of a surrogate. -/
theorem toNat_ne_surrogate (c : Char) (n : Fin 2048) : c.toNat ≠ 0xD800 + n.val := by
  have hvalid : c.toNat < 0xD800 ∨ 0xDFFF < c.toNat ∧ c.toNat < 0x110000 := c.valid
  have hn := n.isLt
  omega

/-- Code points are told apart by their numbers. -/
theorem eq_of_code_eq {a b : CodePoint} (h : a.code = b.code) : a = b := by
  cases a with
  | char c =>
    cases b with
    | char d => exact congrArg char (Char.toNat_inj.mp h)
    | surrogate n => exact absurd h (toNat_ne_surrogate c n)
  | surrogate m =>
    cases b with
    | char d => exact absurd h.symm (toNat_ne_surrogate d m)
    | surrogate n => exact congrArg surrogate (Fin.ext (by simp only [code] at h; omega))

theorem ofNat_code (c : CodePoint) : ofNat c.code = c := by
  cases c with
  | char c =>
    have hvalid : c.toNat < 0xD800 ∨ 0xDFFF < c.toNat ∧ c.toNat < 0x110000 := c.valid
    have hhigh : ¬ (c.toNat - 0xD800 < 2048) ∨ c.toNat < 0xD800 := by omega
    rcases hhigh with h | h <;> simp [ofNat, code, h]
  | surrogate n => simp [ofNat, code]

-- ====================================================== the order of code points

/-- Code points are in the order of their numbers, so the surrogates
stand before U+E000. -/
instance : LT CodePoint := ⟨fun a b => a.code < b.code⟩

instance : LE CodePoint := ⟨fun a b => a.code ≤ b.code⟩

instance : DecidableLT CodePoint := fun a b => inferInstanceAs (Decidable (a.code < b.code))

instance : DecidableLE CodePoint := fun a b => inferInstanceAs (Decidable (a.code ≤ b.code))

instance : Std.IsLinearOrder CodePoint :=
  Std.IsLinearOrder.of_le
    ⟨fun _ _ hab hba => eq_of_code_eq (Nat.le_antisymm hab hba)⟩
    ⟨fun hab hbc => Nat.le_trans hab hbc⟩
    ⟨fun a b => Nat.le_total a.code b.code⟩

instance : Std.LawfulOrderLT CodePoint :=
  ⟨fun _ _ => Nat.lt_iff_le_and_not_ge⟩

-- ====================================================== surrogates

/-- Is the number that of the first half of a surrogate pair? -/
def isHighHalf (n : Nat) : Bool := decide (0xD800 ≤ n) && decide (n ≤ 0xDBFF)

/-- Is the number that of the second half of a surrogate pair? -/
def isLowHalf (n : Nat) : Bool := decide (0xDC00 ≤ n) && decide (n ≤ 0xDFFF)

/-- The number of the character that two halves make. -/
def joinHalves (high low : Nat) : Nat :=
  0x10000 + (high - 0xD800) * 0x400 + (low - 0xDC00)

/-- Is the code point a surrogate? -/
def isSurrogate : CodePoint → Bool
  | surrogate _ => true
  | char _ => false

end CodePoint

-- ====================================================== texts

/-- A text. -/
abbrev Text := List CodePoint

namespace Text

-- ====================================================== equality

/-- Are two texts the same, code point by code point? -/
def same : Text → Text → Bool
  | [], [] => true
  | a :: s, b :: t =>
    (match a, b with
      | .char c, .char d => c == d
      | .surrogate m, .surrogate n => m == n
      | _, _ => false) && same s t
  | _, _ => false

theorem same_iff_eq {s t : Text} : same s t = true ↔ s = t := by
  induction s generalizing t with
  | nil => cases t <;> simp [same]
  | cons a s ih =>
    cases t with
    | nil => simp [same]
    | cons b t => cases a <;> cases b <;> simp [same, ih]

/-- Equality of texts is decided by `same`, in one pass over both. -/
instance : DecidableEq Text := fun _ _ => decidable_of_iff _ same_iff_eq

instance : BEq Text := instBEqOfDecidableEq

-- ====================================================== texts and strings

/-- The text of a list of characters. -/
def ofChars (cs : List Char) : Text :=
  cs.map .char

/-- The text of a string. -/
def ofString (s : String) : Text :=
  ofChars s.toList

instance : Coe (List Char) Text := ⟨ofChars⟩

instance : Coe String Text := ⟨ofString⟩

/-- The string of a text, with the replacement character for every
surrogate. -/
def toScalars (text : Text) : String :=
  String.ofList <| text.map fun
    | .char c => c
    | .surrogate _ => '\uFFFD'

end Text

end Spreadsheet
