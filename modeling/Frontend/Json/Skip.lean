import Frontend.Json.Number
import Frontend.Json.Text

set_option autoImplicit false
set_option linter.unusedVariables false

namespace Frontend.Json

inductive Bracket where
  | list
  | object
deriving DecidableEq

def Bracket.closing : Bracket → Char
  | .list => ']'
  | .object => '\x7d'

inductive Expecting where
  | value
  | firstElement
  | member
  | firstMember
  | more
deriving DecidableEq

def Bracket.afterComma : Bracket → Expecting
  | .list => .value
  | .object => .member

-- The innermost open bracket stands in front.
structure Progress where
  expecting : Expecting
  brackets : List Bracket
  rest : List Char

def skipScalar : List Char → Except Fault (List Char)
  | [] => .error .endOfText
  | c :: text =>
    if c = 'n' then readWord ['u', 'l', 'l'] text
    else if c = 't' then readWord ['r', 'u', 'e'] text
    else if c = 'f' then readWord ['a', 'l', 's', 'e'] text
    else if c = '"' then skipChars text
    else if c = '-' then
      match Decimal.readNumeral text with
      | .error _ => .error .malformed
      | .ok (_, rest) => .ok rest
    else if Decimal.isDigit c then
      match Decimal.readNumeral (c :: text) with
      | .error _ => .error .malformed
      | .ok (_, rest) => .ok rest
    else .error .malformed

def skipValueStart (brackets : List Bracket) : List Char → Except Fault Progress
  | [] => .error .endOfText
  | c :: text =>
    if c = '[' then .ok ⟨.firstElement, .list :: brackets, text⟩
    else if c = '\x7b' then .ok ⟨.firstMember, .object :: brackets, text⟩
    else
      match skipScalar (c :: text) with
      | .error fault => .error fault
      | .ok rest => .ok ⟨.more, brackets, rest⟩

def skipKey (brackets : List Bracket) : List Char → Except Fault Progress
  | [] => .error .endOfText
  | c :: text =>
    if c = '"' then
      match skipChars text with
      | .error fault => .error fault
      | .ok rest =>
        match skipBlanks rest with
        | [] => .error .endOfText
        | c :: rest => if c = ':' then .ok ⟨.value, brackets, rest⟩ else .error .malformed
    else .error .malformed

def skipMore : List Bracket → List Char → Except Fault Progress
  | _, [] => .error .endOfText
  | [], _ :: _ => .error .malformed
  | bracket :: outer, c :: text =>
    if c = ',' then .ok ⟨bracket.afterComma, bracket :: outer, text⟩
    else if c = bracket.closing then .ok ⟨.more, outer, text⟩
    else .error .malformed

-- A key counts as one token with its colon. The text does not start with a blank.
def skipToken (expecting : Expecting) (brackets : List Bracket) (text : List Char) :
    Except Fault Progress :=
  match expecting with
  | .value => skipValueStart brackets text
  | .firstElement =>
    if text.head? = some ']' then skipMore brackets text else skipValueStart brackets text
  | .member => skipKey brackets text
  | .firstMember =>
    if text.head? = some '\x7d' then skipMore brackets text else skipKey brackets text
  | .more => skipMore brackets text

theorem length_skipScalar {text rest : List Char} (read : skipScalar text = .ok rest) :
    rest.length < text.length := by
  unfold skipScalar at read
  split at read
  · cases read
  · split at read
    · exact Nat.lt_succ_of_le (length_readWord read)
    split at read
    · exact Nat.lt_succ_of_le (length_readWord read)
    split at read
    · exact Nat.lt_succ_of_le (length_readWord read)
    split at read
    · exact Nat.lt_trans (length_skipChars read) (Nat.lt_succ_self _)
    split at read
    · split at read
      · cases read
      · rename_i numeral
        cases read
        exact Nat.lt_trans (Decimal.length_readNumeral numeral) (Nat.lt_succ_self _)
    split at read
    · split at read
      · cases read
      · rename_i numeral
        cases read
        exact Decimal.length_readNumeral numeral
    · cases read

theorem length_skipValueStart {brackets : List Bracket} {text : List Char} {progress : Progress}
    (read : skipValueStart brackets text = .ok progress) : progress.rest.length < text.length := by
  unfold skipValueStart at read
  split at read
  · cases read
  · split at read
    · cases read; simp
    split at read
    · cases read; simp
    split at read
    · cases read
    · rename_i scalar
      cases read
      exact length_skipScalar scalar

theorem length_skipKey {brackets : List Bracket} {text : List Char} {progress : Progress}
    (read : skipKey brackets text = .ok progress) : progress.rest.length < text.length := by
  unfold skipKey at read
  split at read
  · cases read
  · split at read
    · split at read
      · cases read
      · rename_i behind key
        split at read
        · cases read
        · rename_i colon rest blanks
          split at read
          · cases read
            have shorter := length_skipChars key
            have blank := length_skipBlanks_le behind
            rw [blanks] at blank
            simp only [List.length_cons] at blank ⊢
            omega
          · cases read
    · cases read

theorem length_skipMore {brackets : List Bracket} {text : List Char} {progress : Progress}
    (read : skipMore brackets text = .ok progress) : progress.rest.length < text.length := by
  unfold skipMore at read
  split at read
  · cases read
  · cases read
  · split at read
    · cases read; simp
    split at read
    · cases read; simp
    · cases read

theorem length_skipToken {expecting : Expecting} {brackets : List Bracket} {text : List Char}
    {progress : Progress} (read : skipToken expecting brackets text = .ok progress) :
    progress.rest.length < text.length := by
  unfold skipToken at read
  split at read
  · exact length_skipValueStart read
  · split at read
    · exact length_skipMore read
    · exact length_skipValueStart read
  · exact length_skipKey read
  · split at read
    · exact length_skipMore read
    · exact length_skipKey read
  · exact length_skipMore read

def skipTokens (expecting : Expecting) (brackets : List Bracket) (text : List Char) :
    Except Fault (List Char) :=
  if expecting = .more ∧ brackets = [] then .ok text
  else
    match token : skipToken expecting brackets (skipBlanks text) with
    | .error fault => .error fault
    | .ok progress => skipTokens progress.expecting progress.brackets progress.rest
termination_by text.length
decreasing_by
  exact Nat.lt_of_lt_of_le (length_skipToken token) (length_skipBlanks_le text)

def skipValue (text : List Char) : Except Fault (List Char) :=
  skipTokens .value [] text

end Frontend.Json
