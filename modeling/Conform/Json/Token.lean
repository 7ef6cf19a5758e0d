/-
The tokens of JSON text. Blanks between tokens are skipped; every other
character belongs to exactly one token, or the text is no JSON.
-/
import Conform.Json.Document

namespace Conform.Json

inductive Token where
  | openBracket
  | closeBracket
  | openBrace
  | closeBrace
  | comma
  | colon
  | null
  | bool (b : Bool)
  | numeral (n : Numeral)
  | string (s : String)

/-! ## Strings -/

/-- A part of a string: a character, or a code unit written in hexadecimal. -/
inductive Piece where
  | char (c : Char)
  | unit (n : Nat)

def hexDigit? (c : Char) : Option Nat :=
  if '0' ≤ c ∧ c ≤ '9' then some (c.toNat - '0'.toNat)
  else if 'a' ≤ c ∧ c ≤ 'f' then some (c.toNat - 'a'.toNat + 10)
  else if 'A' ≤ c ∧ c ≤ 'F' then some (c.toNat - 'A'.toNat + 10)
  else none

def codeUnit? (a b c d : Char) : Option Nat := do
  let a ← hexDigit? a
  let b ← hexDigit? b
  let c ← hexDigit? c
  let d ← hexDigit? d
  some (((a * 16 + b) * 16 + c) * 16 + d)

/-- The character that a letter after a backslash stands for. -/
def escaped? (c : Char) : Option Char :=
  if c = '"' then some '"'
  else if c = '\\' then some '\\'
  else if c = '/' then some '/'
  else if c = 'b' then some '\x08'
  else if c = 'f' then some '\x0c'
  else if c = 'n' then some '\n'
  else if c = 'r' then some '\r'
  else if c = 't' then some '\t'
  else none

/-- The parts of a string up to its closing quote, and what follows the quote.
Control characters do not stand in strings. -/
def pieces? : List Char → Option (List Piece × List Char)
  | [] => none
  | '"' :: rest => some ([], rest)
  | '\\' :: 'u' :: a :: b :: c :: d :: rest => do
    let n ← codeUnit? a b c d
    let (ps, rest) ← pieces? rest
    some (.unit n :: ps, rest)
  | '\\' :: c :: rest => do
    let c ← escaped? c
    let (ps, rest) ← pieces? rest
    some (.char c :: ps, rest)
  | c :: rest =>
    if c = '\\' ∨ c.toNat < 0x20 then none
    else do
      let (ps, rest) ← pieces? rest
      some (.char c :: ps, rest)

/-- Is a code unit the first half of a pair? -/
def isHighSurrogate (n : Nat) : Bool := 0xd800 ≤ n && n < 0xdc00

/-- Is a code unit the second half of a pair? -/
def isLowSurrogate (n : Nat) : Bool := 0xdc00 ≤ n && n < 0xe000

/-- The characters of the parts of a string. Halves of pairs stand for one
character together and for none alone. -/
def characters? : List Piece → Option (List Char)
  | [] => some []
  | .char c :: ps => (c :: ·) <$> characters? ps
  | .unit n :: .unit m :: ps =>
    if isHighSurrogate n then
      if isLowSurrogate m then
        (Char.ofNat (0x10000 + (n - 0xd800) * 0x400 + (m - 0xdc00)) :: ·) <$> characters? ps
      else none
    else if isLowSurrogate n then none
    else (Char.ofNat n :: ·) <$> characters? (.unit m :: ps)
  | .unit n :: ps =>
    if isHighSurrogate n || isLowSurrogate n then none
    else (Char.ofNat n :: ·) <$> characters? ps

/-- A string whose opening quote has been read, and what follows it. -/
def string? (cs : List Char) : Option (String × List Char) := do
  let (ps, rest) ← pieces? cs
  let s ← characters? ps
  some (String.ofList s, rest)

/-! ## Numerals -/

/-- The digits at the front, and what follows them. -/
def spanDigits (cs : List Char) : List Char × List Char :=
  (cs.takeWhile Char.isDigit, cs.dropWhile Char.isDigit)

def sign (cs : List Char) : Bool × List Char :=
  match cs with
  | '-' :: rest => (true, rest)
  | _ => (false, cs)

/-- Digits before a point: no zero stands in front of other digits. -/
def wholePart? (cs : List Char) : Option (List Char × List Char) :=
  match spanDigits cs with
  | ([], _) => none
  | (ds, rest) => if ds.head? = some '0' ∧ ds.length ≠ 1 then none else some (ds, rest)

/-- A point and the digits after it, if there is a point. -/
def fractionPart? (cs : List Char) : Option (List Char × List Char) :=
  match cs with
  | '.' :: rest =>
    match spanDigits rest with
    | ([], _) => none
    | (ds, rest) => some (ds, rest)
  | _ => some ([], cs)

def exponentSign (cs : List Char) : Bool × List Char :=
  match cs with
  | '-' :: rest => (true, rest)
  | '+' :: rest => (false, rest)
  | _ => (false, cs)

def exponentPart? (cs : List Char) : Option (Option Int × List Char) :=
  match cs with
  | [] => some (none, [])
  | c :: rest =>
    if c = 'e' ∨ c = 'E' then
      let (negative, rest) := exponentSign rest
      match spanDigits rest with
      | ([], _) => none
      | (ds, rest) =>
        let n : Int := Nat.ofDigitChars 10 ds 0
        some (some (if negative then -n else n), rest)
    else some (none, cs)

def numeral? (cs : List Char) : Option (Numeral × List Char) := do
  let (negative, cs) := sign cs
  let (whole, cs) ← wholePart? cs
  let (fraction, cs) ← fractionPart? cs
  let (exponent, cs) ← exponentPart? cs
  some ({ negative := negative
          digits := Nat.ofDigitChars 10 (whole ++ fraction) 0
          exponent := exponent.getD 0 - fraction.length
          integral := fraction.isEmpty && exponent.isNone }, cs)

/-! ## The token at the front -/

/-- Is a character a blank between tokens? -/
def isBlank (c : Char) : Bool := c == ' ' || c == '\t' || c == '\n' || c == '\r'

/-- The tokens of one character. -/
def punctuation? (c : Char) : Option Token :=
  if c = '[' then some .openBracket
  else if c = ']' then some .closeBracket
  else if c = '\x7b' then some .openBrace
  else if c = '\x7d' then some .closeBrace
  else if c = ',' then some .comma
  else if c = ':' then some .colon
  else none

/-- A token that is spelt in one way only, of which these characters are left. -/
def literal? (t : Token) (spelling cs : List Char) : Option (Token × List Char) :=
  if cs.take spelling.length = spelling then some (t, cs.drop spelling.length) else none

/-- The token at the front of text that begins with no blank, and what follows it. -/
def Token.next? : List Char → Option (Token × List Char)
  | [] => none
  | c :: rest =>
    match punctuation? c with
    | some t => some (t, rest)
    | none =>
      if c = '"' then (string? rest).map fun p => (.string p.1, p.2)
      else if c = 'n' then literal? .null ['u', 'l', 'l'] rest
      else if c = 't' then literal? (.bool true) ['r', 'u', 'e'] rest
      else if c = 'f' then literal? (.bool false) ['a', 'l', 's', 'e'] rest
      else (numeral? (c :: rest)).map fun p => (.numeral p.1, p.2)

/-! ## All tokens

Every token takes characters off the text, so reading one after another comes to
an end. -/

theorem pieces?_shorter {cs : List Char} {ps : List Piece} {rest : List Char}
    (h : pieces? cs = some (ps, rest)) : rest.length < cs.length := by
  fun_induction pieces? cs generalizing ps rest with
  | case1 => simp at h
  | case2 => simp_all
  | case3 a b c d cs ih =>
    simp only [bind, Option.bind_eq_some_iff, Option.some.injEq, Prod.mk.injEq] at h
    obtain ⟨_, _, p, hp, _, rfl⟩ := h
    have := ih hp
    simp only [List.length_cons]
    omega
  | case4 c cs _ ih =>
    simp only [bind, Option.bind_eq_some_iff, Option.some.injEq, Prod.mk.injEq] at h
    obtain ⟨_, _, p, hp, _, rfl⟩ := h
    have := ih hp
    simp only [List.length_cons]
    omega
  | case5 => simp at h
  | case6 c cs _ _ _ _ ih =>
    simp only [bind, Option.bind_eq_some_iff, Option.some.injEq, Prod.mk.injEq] at h
    obtain ⟨p, hp, _, rfl⟩ := h
    have := ih hp
    simp only [List.length_cons]
    omega

theorem spanDigits_length (cs : List Char) :
    (spanDigits cs).1.length + (spanDigits cs).2.length = cs.length := by
  rw [← List.length_append, spanDigits, List.takeWhile_append_dropWhile]

theorem wholePart?_shorter {cs ds rest : List Char} (h : wholePart? cs = some (ds, rest)) :
    rest.length < cs.length := by
  have := spanDigits_length cs
  unfold wholePart? at h
  split at h
  · simp at h
  · next ds' rest' hne hs =>
    rw [hs] at this
    split at h
    · simp at h
    · simp only [Option.some.injEq, Prod.mk.injEq] at h
      obtain ⟨_, rfl⟩ := h
      cases ds' with
      | nil => exact absurd rfl hne
      | cons _ _ => simp only [List.length_cons] at this; omega

theorem fractionPart?_length {cs ds rest : List Char} (h : fractionPart? cs = some (ds, rest)) :
    rest.length ≤ cs.length := by
  unfold fractionPart? at h
  split at h
  · next r =>
    have := spanDigits_length r
    split at h
    · simp at h
    · next hs =>
      simp only [hs] at this
      simp only [Option.some.injEq, Prod.mk.injEq] at h
      obtain ⟨_, rfl⟩ := h
      simp only [List.length_cons]
      omega
  · simp_all

theorem exponentSign_length (cs : List Char) : (exponentSign cs).2.length ≤ cs.length := by
  unfold exponentSign
  split <;> simp

theorem exponentPart?_length {cs rest : List Char} {e : Option Int}
    (h : exponentPart? cs = some (e, rest)) : rest.length ≤ cs.length := by
  unfold exponentPart? at h
  split at h
  · simp_all
  · next c r =>
    split at h
    · have h₁ := exponentSign_length r
      have h₂ := spanDigits_length (exponentSign r).2
      simp only at h
      split at h
      · simp at h
      · next hs =>
        simp only [hs] at h₂
        simp only [Option.some.injEq, Prod.mk.injEq] at h
        obtain ⟨_, rfl⟩ := h
        simp only [List.length_cons]
        omega
    · simp_all

theorem sign_length (cs : List Char) : (sign cs).2.length ≤ cs.length := by
  unfold sign
  split <;> simp

theorem numeral?_shorter {cs rest : List Char} {n : Numeral} (h : numeral? cs = some (n, rest)) :
    rest.length < cs.length := by
  simp only [numeral?, bind, Option.bind_eq_some_iff, Option.some.injEq, Prod.mk.injEq] at h
  obtain ⟨_, hw, _, hf, _, he, _, rfl⟩ := h
  have h₁ := sign_length cs
  have h₂ := wholePart?_shorter hw
  have h₃ := fractionPart?_length hf
  have h₄ := exponentPart?_length he
  omega

theorem string?_shorter {cs rest : List Char} {s : String} (h : string? cs = some (s, rest)) :
    rest.length < cs.length := by
  simp only [string?, bind, Option.bind_eq_some_iff, Option.some.injEq, Prod.mk.injEq] at h
  obtain ⟨_, hp, _, _, _, rfl⟩ := h
  exact pieces?_shorter hp

theorem literal?_length {t t' : Token} {spelling cs rest : List Char}
    (h : literal? t spelling cs = some (t', rest)) : rest.length ≤ cs.length := by
  unfold literal? at h
  split at h
  · simp only [Option.some.injEq, Prod.mk.injEq] at h
    rw [← h.2, List.length_drop]
    omega
  · simp at h

/-- A token takes characters off the text. -/
theorem Token.next?_shorter {cs rest : List Char} {t : Token} (h : next? cs = some (t, rest)) :
    rest.length < cs.length := by
  cases cs with
  | nil => simp [next?] at h
  | cons c cs =>
    have word {t' : Token} {spelling : List Char} (h : literal? t' spelling cs = some (t, rest)) :
        rest.length < (c :: cs).length := Nat.lt_succ_of_le (literal?_length h)
    simp only [next?] at h
    split at h
    · simp_all
    · split at h
      · obtain ⟨_, hs, hp⟩ := Option.map_eq_some_iff.1 h
        simp only [Prod.mk.injEq] at hp
        exact hp.2 ▸ Nat.lt_succ_of_lt (string?_shorter hs)
      · split at h
        · exact word h
        · split at h
          · exact word h
          · split at h
            · exact word h
            · obtain ⟨_, hn, hp⟩ := Option.map_eq_some_iff.1 h
              simp only [Prod.mk.injEq] at hp
              exact hp.2 ▸ numeral?_shorter hn

/-- The tokens of a text, if it consists of tokens. -/
def tokens? (cs : List Char) : Option (List Token) :=
  match cs with
  | [] => some []
  | c :: rest =>
    if isBlank c then tokens? rest
    else
      match _h : Token.next? (c :: rest) with
      | none => none
      | some (t, rest') => (t :: ·) <$> tokens? rest'
termination_by cs.length
decreasing_by
  · simp
  · exact Token.next?_shorter (by assumption)

end Conform.Json
