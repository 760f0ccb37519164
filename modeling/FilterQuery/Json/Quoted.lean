import FilterQuery.Text.Basic

/-!
# Strings of JSON texts

A string stands between double quotes. Writing escapes the quotation mark, the backslash and the
control characters below U+0020; all else stands as it is. Reading takes all escapes of the format.

An escape of four hexadecimal digits stands for a UTF-16 code unit. Reading therefore goes by two
steps: first the numbers of the characters, with halves of surrogate pairs as they are written, and
then the text, in which such halves make up pairs. A string with a half alone is well formed and
still no text.
-/

namespace FilterQuery.Json

/-! ## Writing -/

/-- The letter that stands for a character after a backslash, for the characters written so. -/
def escapeLetter? : Char → Option Char
  | '"' => some '"'
  | '\\' => some '\\'
  | '\x08' => some 'b'
  | '\x0c' => some 'f'
  | '\n' => some 'n'
  | '\r' => some 'r'
  | '\t' => some 't'
  | _ => none

/-- A character as it is written in a string. -/
def escapeChar (c : Char) : Text :=
  match escapeLetter? c with
  | some letter => ['\\', letter]
  | none =>
    if c.toNat < 0x20 then
      "\\u00".toList ++ [Nat.digitChar (c.toNat / 16), Nat.digitChar (c.toNat % 16)]
    else [c]

/-- A text as a string. -/
def quote (t : Text) : Text := '"' :: t.flatMap escapeChar ++ ['"']

/-! ## Reading the characters -/

/-- The value of a hexadecimal digit in either case. -/
def hexValue? (c : Char) : Option Nat :=
  if '0' ≤ c ∧ c ≤ '9' then some (c.toNat - '0'.toNat)
  else if 'a' ≤ c ∧ c ≤ 'f' then some (c.toNat - 'a'.toNat + 10)
  else if 'A' ≤ c ∧ c ≤ 'F' then some (c.toNat - 'A'.toNat + 10)
  else none

/-- The number that four hexadecimal digits stand for. -/
def hexUnit? (a b c d : Char) : Option Nat := do
  let a ← hexValue? a
  let b ← hexValue? b
  let c ← hexValue? c
  let d ← hexValue? d
  some (((a * 16 + b) * 16 + c) * 16 + d)

/-- The character that a letter stands for after a backslash. -/
def escaped? : Char → Option Char
  | '"' => some '"'
  | '\\' => some '\\'
  | '/' => some '/'
  | 'b' => some '\x08'
  | 'f' => some '\x0c'
  | 'n' => some '\n'
  | 'r' => some '\r'
  | 't' => some '\t'
  | _ => none

/-- Writing uses letters that reading knows. -/
theorem escaped?_of_escapeLetter? {c letter : Char} (h : escapeLetter? c = some letter) :
    escaped? letter = some c := by
  unfold escapeLetter? at h
  split at h <;> simp at h <;> subst h <;> rfl

/-- Reads on from inside a string up to its closing mark, and gives the numbers of its characters
and what follows the string. -/
def readUnits? : Text → Option (List Nat × Text)
  | [] => none
  | c :: rest =>
    if c = '"' then some ([], rest)
    else if c = '\\' then
      match rest with
      | [] => none
      | e :: rest =>
        if e = 'u' then
          match rest with
          | h₁ :: h₂ :: h₃ :: h₄ :: rest => do
            let unit ← hexUnit? h₁ h₂ h₃ h₄
            let (units, after) ← readUnits? rest
            some (unit :: units, after)
          | _ => none
        else do
          let char ← escaped? e
          let (units, after) ← readUnits? rest
          some (char.toNat :: units, after)
    else if c.toNat < 0x20 then none
    else do
      let (units, after) ← readUnits? rest
      some (c.toNat :: units, after)

theorem length_readUnits?_lt {t after : Text} {units : List Nat}
    (h : readUnits? t = some (units, after)) : after.length < t.length := by
  fun_induction readUnits? t generalizing units after with
  | case1 => simp at h
  | case2 => simp_all
  | case3 => simp at h
  | case4 =>
    rename_i ih
    simp only [Option.bind_eq_bind, Option.bind_eq_some_iff, Option.some.injEq, Prod.mk.injEq] at h
    obtain ⟨_, _, ⟨units', after'⟩, h', -, rfl⟩ := h
    have := ih h'
    simp only [List.length_cons]
    omega
  | case5 => simp at h
  | case6 =>
    rename_i ih
    simp only [Option.bind_eq_bind, Option.bind_eq_some_iff, Option.some.injEq, Prod.mk.injEq] at h
    obtain ⟨_, _, ⟨units', after'⟩, h', -, rfl⟩ := h
    have := ih h'
    simp only [List.length_cons]
    omega
  | case7 => simp at h
  | case8 =>
    rename_i ih
    simp only [Option.bind_eq_bind, Option.bind_eq_some_iff, Option.some.injEq, Prod.mk.injEq] at h
    obtain ⟨⟨units', after'⟩, h', -, rfl⟩ := h
    have := ih h'
    simp only [List.length_cons]
    omega

/-! ## Joining halves -/

/-- Whether a number is the first half of a surrogate pair. -/
def isHighHalf (n : Nat) : Bool := 0xd800 ≤ n && n < 0xdc00

/-- Whether a number is the second half of a surrogate pair. -/
def isLowHalf (n : Nat) : Bool := 0xdc00 ≤ n && n < 0xe000

/-- The text with given numbers of characters, if every half of a surrogate pair is in a pair. -/
def joinUnits? : List Nat → Option Text
  | [] => some []
  | [n] => if isHighHalf n || isLowHalf n then none else some [Char.ofNat n]
  | n :: m :: rest =>
    if isHighHalf n then
      if isLowHalf m then
        (joinUnits? rest).map (Char.ofNat (0x10000 + (n - 0xd800) * 0x400 + (m - 0xdc00)) :: ·)
      else none
    else if isLowHalf n then none
    else (joinUnits? (m :: rest)).map (Char.ofNat n :: ·)

/-- The number of a character is no half of a surrogate pair. -/
theorem not_half_toNat (c : Char) : isHighHalf c.toNat = false ∧ isLowHalf c.toNat = false := by
  have h := c.valid
  simp only [UInt32.isValidChar, Nat.isValidChar] at h
  simp only [isHighHalf, isLowHalf, Bool.and_eq_false_iff, decide_eq_false_iff_not, Char.toNat]
  omega

theorem joinUnits?_map_toNat : ∀ t : Text, joinUnits? (t.map Char.toNat) = some t
  | [] => rfl
  | [c] => by simp [joinUnits?, not_half_toNat]
  | c :: d :: rest => by
    have ih := joinUnits?_map_toNat (d :: rest)
    simp only [List.map_cons] at ih ⊢
    simp [joinUnits?, not_half_toNat, ih]

end FilterQuery.Json
