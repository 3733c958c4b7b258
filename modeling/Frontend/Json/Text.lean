import Frontend.Json.Fault

set_option autoImplicit false
set_option linter.unusedVariables false

namespace Frontend.Json

def hexValue? (c : Char) : Option Nat :=
  let code := c.toNat
  if 48 ≤ code ∧ code ≤ 57 then some (code - 48)
  else if 97 ≤ code ∧ code ≤ 102 then some (code - 87)
  else if 65 ≤ code ∧ code ≤ 70 then some (code - 55)
  else none

def byteLength : List Char → Nat
  | [] => 0
  | c :: text => c.utf8Size + byteLength text

-- The text has ended if fewer than four bytes are left.
def readHex : List Char → Except Fault (Nat × List Char)
  | a :: b :: c :: d :: rest =>
    match hexValue? a, hexValue? b, hexValue? c, hexValue? d with
    | some a, some b, some c, some d => .ok (a * 4096 + b * 256 + c * 16 + d, rest)
    | _, _, _, _ => .error .malformed
  | text => .error (if byteLength text < 4 then .endOfText else .malformed)

def isHighSurrogate (unit : Nat) : Bool :=
  decide (0xd800 ≤ unit) && decide (unit ≤ 0xdbff)

def isLowSurrogate (unit : Nat) : Bool :=
  decide (0xdc00 ≤ unit) && decide (unit ≤ 0xdfff)

def joinSurrogates (high low : Nat) : Char :=
  Char.ofNat (0x10000 + (high - 0xd800) * 0x400 + (low - 0xdc00))

def readLowSurrogate : List Char → Except Fault (Nat × List Char)
  | [] => .error .endOfText
  | ['\\'] => .error .endOfText
  | '\\' :: 'u' :: text =>
    match readHex text with
    | .error fault => .error fault
    | .ok (low, rest) => if isLowSurrogate low then .ok (low, rest) else .error .malformed
  | _ => .error .malformed

-- No surrogate may stand alone.
def readUnicode (text : List Char) : Except Fault (Char × List Char) :=
  match readHex text with
  | .error fault => .error fault
  | .ok (unit, rest) =>
    if isLowSurrogate unit then .error .malformed
    else if isHighSurrogate unit then
      match readLowSurrogate rest with
      | .error fault => .error fault
      | .ok (low, rest) => .ok (joinSurrogates unit low, rest)
    else .ok (Char.ofNat unit, rest)

def escapedChar? (c : Char) : Option Char :=
  if c = '"' then some '"'
  else if c = '\\' then some '\\'
  else if c = '/' then some '/'
  else if c = 'b' then some '\x08'
  else if c = 'f' then some '\x0c'
  else if c = 'n' then some '\n'
  else if c = 'r' then some '\r'
  else if c = 't' then some '\t'
  else none

def readEscape : List Char → Except Fault (Char × List Char)
  | [] => .error .endOfText
  | c :: rest =>
    if c = 'u' then readUnicode rest
    else match escapedChar? c with
      | some plain => .ok (plain, rest)
      | none => .error .malformed

def skipEscape : List Char → Except Fault (List Char)
  | [] => .error .endOfText
  | c :: rest =>
    if c = 'u' then
      match readHex rest with
      | .error fault => .error fault
      | .ok (_, rest) => .ok rest
    else if (escapedChar? c).isSome then .ok rest
    else .error .malformed

theorem length_readHex {text rest : List Char} {unit : Nat} (read : readHex text = .ok (unit, rest)) :
    rest.length < text.length := by
  unfold readHex at read
  split at read
  · split at read
    · cases read; simp only [List.length_cons]; omega
    · cases read
  · cases read

theorem length_readLowSurrogate {text rest : List Char} {low : Nat}
    (read : readLowSurrogate text = .ok (low, rest)) : rest.length < text.length := by
  unfold readLowSurrogate at read
  split at read
  · cases read
  · cases read
  · split at read
    · cases read
    · rename_i hex
      split at read
      · cases read
        have := length_readHex hex
        simp only [List.length_cons]
        omega
      · cases read
  · cases read

theorem length_readUnicode {text rest : List Char} {c : Char}
    (read : readUnicode text = .ok (c, rest)) : rest.length < text.length := by
  unfold readUnicode at read
  split at read
  · cases read
  · rename_i hex
    have shorter := length_readHex hex
    split at read
    · cases read
    · split at read
      · split at read
        · cases read
        · rename_i pair
          simp only [Except.ok.injEq, Prod.mk.injEq] at read
          rw [← read.2]
          exact Nat.lt_trans (length_readLowSurrogate pair) shorter
      · simp only [Except.ok.injEq, Prod.mk.injEq] at read
        rw [← read.2]
        exact shorter

theorem length_readEscape {text rest : List Char} {c : Char}
    (read : readEscape text = .ok (c, rest)) : rest.length < text.length := by
  unfold readEscape at read
  split at read
  · cases read
  · split at read
    · exact Nat.lt_trans (length_readUnicode read) (Nat.lt_succ_self _)
    · split at read
      · cases read; simp
      · cases read

theorem length_skipEscape {text rest : List Char} (read : skipEscape text = .ok rest) :
    rest.length < text.length := by
  unfold skipEscape at read
  split at read
  · cases read
  · split at read
    · split at read
      · cases read
      · rename_i hex
        cases read
        exact Nat.lt_trans (length_readHex hex) (Nat.lt_succ_self _)
    · split at read
      · cases read; simp
      · cases read

def readChars : List Char → Except Fault (List Char × List Char)
  | [] => .error .endOfText
  | c :: text =>
    if c = '"' then .ok ([], text)
    else if c = '\\' then
      match escape : readEscape text with
      | .error fault => .error fault
      | .ok (plain, rest) =>
        match readChars rest with
        | .error fault => .error fault
        | .ok (chars, rest) => .ok (plain :: chars, rest)
    else if c.toNat < 0x20 then .error .malformed
    else
      match readChars text with
      | .error fault => .error fault
      | .ok (chars, rest) => .ok (c :: chars, rest)
termination_by text => text.length
decreasing_by
  · exact Nat.lt_trans (length_readEscape escape) (Nat.lt_succ_self _)
  · exact Nat.lt_succ_self _

-- Escapes are well formed, but surrogates need no partner.
def skipChars : List Char → Except Fault (List Char)
  | [] => .error .endOfText
  | c :: text =>
    if c = '"' then .ok text
    else if c = '\\' then
      match escape : skipEscape text with
      | .error fault => .error fault
      | .ok rest => skipChars rest
    else if c.toNat < 0x20 then .error .malformed
    else skipChars text
termination_by text => text.length
decreasing_by
  · exact Nat.lt_trans (length_skipEscape escape) (Nat.lt_succ_self _)
  · exact Nat.lt_succ_self _

def readString (text : List Char) : Except Fault (String × List Char) :=
  match readChars text with
  | .error fault => .error fault
  | .ok (chars, rest) => .ok (String.ofList chars, rest)

theorem length_skipChars {text rest : List Char} (read : skipChars text = .ok rest) :
    rest.length < text.length := by
  fun_induction skipChars text with
  | case1 => cases read
  | case2 => cases read; simp
  | case3 => cases read
  | case4 =>
    rename_i escape _ ih
    exact Nat.lt_trans (ih read) (Nat.lt_trans (length_skipEscape escape) (Nat.lt_succ_self _))
  | case5 => cases read
  | case6 =>
    rename_i ih
    exact Nat.lt_trans (ih read) (Nat.lt_succ_self _)

end Frontend.Json
