set_option autoImplicit false

namespace Frontend.Json

inductive Fault where
  | endOfText
  | malformed
  -- The text may be JSON, but the value is not one that is wanted here.
  | unsuitable
deriving DecidableEq

def isBlank (c : Char) : Bool :=
  c == ' ' || c == '\t' || c == '\n' || c == '\r'

def skipBlanks (text : List Char) : List Char :=
  text.dropWhile isBlank

theorem length_skipBlanks_le (text : List Char) : (skipBlanks text).length ≤ text.length :=
  (List.dropWhile_sublist isBlank).length_le

def readWord : List Char → List Char → Except Fault (List Char)
  | [], text => .ok text
  | _ :: _, [] => .error .endOfText
  | expected :: word, c :: text => if c = expected then readWord word text else .error .malformed

theorem length_readWord {word text rest : List Char} (read : readWord word text = .ok rest) :
    rest.length ≤ text.length := by
  induction word generalizing text with
  | nil => simp only [readWord, Except.ok.injEq] at read; simp [read]
  | cons expected word ih =>
    cases text with
    | nil => simp [readWord] at read
    | cons c text =>
      unfold readWord at read
      split at read
      · exact Nat.le_trans (ih read) (Nat.le_succ _)
      · cases read

end Frontend.Json
