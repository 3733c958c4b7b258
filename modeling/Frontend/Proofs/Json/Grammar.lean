import Frontend.Proofs.Decimal.Reader

set_option autoImplicit false

namespace Frontend.Json

def Blank (text : List Char) : Prop := ∀ c ∈ text, c ∈ [' ', '\t', '\n', '\r']

theorem blank_nil : Blank [] := by
  simp [Blank]

-- The letter behind a backslash, and what the two stand for.
def shortEscapes : List (Char × Char) :=
  [('"', '"'), ('\\', '\\'), ('/', '/'), ('b', '\x08'), ('f', '\x0c'), ('n', '\n'), ('r', '\r'), ('t', '\t')]

def hexDigits : List (Char × Nat) :=
  [('0', 0), ('1', 1), ('2', 2), ('3', 3), ('4', 4), ('5', 5), ('6', 6), ('7', 7), ('8', 8), ('9', 9),
    ('a', 10), ('b', 11), ('c', 12), ('d', 13), ('e', 14), ('f', 15),
    ('A', 10), ('B', 11), ('C', 12), ('D', 13), ('E', 14), ('F', 15)]

inductive CodeText : List Char → Nat → Prop where
  | digits (a b c d : Char × Nat) (knownA : a ∈ hexDigits) (knownB : b ∈ hexDigits) (knownC : c ∈ hexDigits)
      (knownD : d ∈ hexDigits) : CodeText [a.1, b.1, c.1, d.1] (a.2 * 4096 + b.2 * 256 + c.2 * 16 + d.2)

-- What may stand between two quotes. A surrogate needs no partner here.
inductive QuotedText : List Char → Prop where
  | nothing : QuotedText []
  | plain (c : Char) (text : List Char) (quote : c ≠ '"') (backslash : c ≠ '\\') (visible : 0x20 ≤ c.toNat)
      (rest : QuotedText text) : QuotedText (c :: text)
  | short (mark plain : Char) (text : List Char) (known : (mark, plain) ∈ shortEscapes) (rest : QuotedText text) :
      QuotedText ('\\' :: mark :: text)
  | code (code : List Char) (unit : Nat) (text : List Char) (written : CodeText code unit) (rest : QuotedText text) :
      QuotedText ('\\' :: 'u' :: (code ++ text))

-- A text between quotes that spells out characters. Every surrogate has its partner.
inductive SpelledText : List Char → List Char → Prop where
  | nothing : SpelledText [] []
  | plain (c : Char) (text chars : List Char) (quote : c ≠ '"') (backslash : c ≠ '\\') (visible : 0x20 ≤ c.toNat)
      (rest : SpelledText text chars) : SpelledText (c :: text) (c :: chars)
  | short (mark plain : Char) (text chars : List Char) (known : (mark, plain) ∈ shortEscapes)
      (rest : SpelledText text chars) : SpelledText ('\\' :: mark :: text) (plain :: chars)
  | code (code : List Char) (c : Char) (text chars : List Char) (written : CodeText code c.toNat)
      (rest : SpelledText text chars) : SpelledText ('\\' :: 'u' :: (code ++ text)) (c :: chars)
  | pair (first second : List Char) (high low : Nat) (c : Char) (text chars : List Char) (highSmall : high < 0x400)
      (lowSmall : low < 0x400) (firstWritten : CodeText first (0xd800 + high)) (secondWritten : CodeText second (0xdc00 + low))
      (joined : c.toNat = 0x10000 + high * 0x400 + low) (rest : SpelledText text chars) :
      SpelledText ('\\' :: 'u' :: (first ++ '\\' :: 'u' :: (second ++ text))) (c :: chars)

theorem spelled_plain (chars : List Char) (plain : ∀ c ∈ chars, c ≠ '"' ∧ c ≠ '\\' ∧ 0x20 ≤ c.toNat) :
    SpelledText chars chars := by
  induction chars with
  | nil => exact .nothing
  | cons c chars ih =>
      obtain ⟨⟨quote, backslash, visible⟩, others⟩ := List.forall_mem_cons.mp plain
      exact .plain c chars chars quote backslash visible (ih others)

-- A member of an object: the text between the quotes of its key, blanks, its value, and blanks behind it.
def memberText (key before gap value behind : List Char) : List Char :=
  '"' :: (key ++ '"' :: (before ++ ':' :: (gap ++ (value ++ behind))))

inductive Part where
  | value
  | elements
  | members

-- Values, and what stands between the brackets of a list or an object that is not empty.
inductive Formed : Part → List Char → Prop where
  | word (text : List Char) (known : text ∈ [['n', 'u', 'l', 'l'], ['t', 'r', 'u', 'e'], ['f', 'a', 'l', 's', 'e']]) :
      Formed .value text
  | number (numeral : Decimal.Numeral) (text : List Char) (written : Decimal.NumeralText numeral text) : Formed .value text
  | negative (numeral : Decimal.Numeral) (text : List Char) (written : Decimal.NumeralText numeral text) :
      Formed .value ('-' :: text)
  | string (text : List Char) (quoted : QuotedText text) : Formed .value ('"' :: (text ++ ['"']))
  | emptyList (gap : List Char) (blank : Blank gap) : Formed .value ('[' :: (gap ++ [']']))
  | list (gap inside : List Char) (blank : Blank gap) (elements : Formed .elements inside) :
      Formed .value ('[' :: (gap ++ (inside ++ [']'])))
  | emptyObject (gap : List Char) (blank : Blank gap) : Formed .value ('\x7b' :: (gap ++ ['\x7d']))
  | object (gap inside : List Char) (blank : Blank gap) (members : Formed .members inside) :
      Formed .value ('\x7b' :: (gap ++ (inside ++ ['\x7d'])))
  | lastElement (value behind : List Char) (blank : Blank behind) (formed : Formed .value value) :
      Formed .elements (value ++ behind)
  | element (value behind gap rest : List Char) (blank : Blank behind) (blankNext : Blank gap) (formed : Formed .value value)
      (others : Formed .elements rest) : Formed .elements (value ++ (behind ++ ',' :: (gap ++ rest)))
  | lastMember (key before gap value behind : List Char) (quoted : QuotedText key) (blankBefore : Blank before)
      (blankGap : Blank gap) (blank : Blank behind) (formed : Formed .value value) :
      Formed .members (memberText key before gap value behind)
  | member (key before gap value behind next rest : List Char) (quoted : QuotedText key) (blankBefore : Blank before)
      (blankGap : Blank gap) (blank : Blank behind) (blankNext : Blank next) (formed : Formed .value value)
      (others : Formed .members rest) : Formed .members (memberText key before gap value behind ++ ',' :: (next ++ rest))

-- Members with their keys spelled out. Their values are texts of any kind.
inductive MembersText : List (String × List Char) → List Char → Prop where
  | last (key : String) (spelled before gap value behind : List Char) (spelling : SpelledText spelled key.toList)
      (blankBefore : Blank before) (blankGap : Blank gap) (blank : Blank behind) :
      MembersText [(key, value)] (memberText spelled before gap value behind)
  | more (key : String) (spelled before gap value behind next rest : List Char) (members : List (String × List Char))
      (spelling : SpelledText spelled key.toList) (blankBefore : Blank before) (blankGap : Blank gap) (blank : Blank behind)
      (blankNext : Blank next) (others : MembersText members rest) :
      MembersText ((key, value) :: members) (memberText spelled before gap value behind ++ ',' :: (next ++ rest))

inductive ObjectText : List (String × List Char) → List Char → Prop where
  | empty (gap : List Char) (blank : Blank gap) : ObjectText [] ('\x7b' :: (gap ++ ['\x7d']))
  | full (members : List (String × List Char)) (gap inside : List Char) (blank : Blank gap)
      (written : MembersText members inside) : ObjectText members ('\x7b' :: (gap ++ (inside ++ ['\x7d'])))

end Frontend.Json
