import Frontend.Json.Skip

set_option autoImplicit false

namespace Frontend.Json

def Fault.ofUnwanted {α : Type} : Except Fault α → Fault
  | .error fault => fault
  | .ok _ => .unsuitable

-- Lists and objects are not looked into. The text does not start with a blank.
def rejection : List Char → Fault
  | [] => .endOfText
  | c :: text =>
    if c = 'n' then .ofUnwanted (readWord ['u', 'l', 'l'] text)
    else if c = 't' then .ofUnwanted (readWord ['r', 'u', 'e'] text)
    else if c = 'f' then .ofUnwanted (readWord ['a', 'l', 's', 'e'] text)
    else if c = '-' then .ofUnwanted (readNumber true text)
    else if Decimal.isDigit c then .ofUnwanted (readNumber false (c :: text))
    else if c = '"' then .ofUnwanted (readChars text)
    else if c = '[' ∨ c = '\x7b' then .unsuitable
    else .malformed

abbrev Reader (α : Type) := List Char → Except Fault (α × List Char)

def naturalBody : Reader Nat
  | [] => .error .endOfText
  | c :: text =>
    if c = '-' then
      match readNumber true text with
      | .error fault => .error fault
      | .ok _ => .error .unsuitable
    else if Decimal.isDigit c then
      match readNumber false (c :: text) with
      | .error fault => .error fault
      | .ok (.natural n, rest) => .ok (n, rest)
      | .ok (.other, _) => .error .unsuitable
    else .error (rejection (c :: text))

def natural : Reader Nat := fun text => naturalBody (skipBlanks text)

def nullBody : Reader Unit
  | [] => .error .endOfText
  | c :: text =>
    if c = 'n' then
      match readWord ['u', 'l', 'l'] text with
      | .error fault => .error fault
      | .ok rest => .ok ((), rest)
    else .error (rejection (c :: text))

def null : Reader Unit := fun text => nullBody (skipBlanks text)

def optional {α : Type} (reader : Reader α) : Reader (Option α) := fun text =>
  if (skipBlanks text).head? = some 'n' then
    match null text with
    | .error fault => .error fault
    | .ok (_, rest) => .ok (none, rest)
  else
    match reader text with
    | .error fault => .error fault
    | .ok (value, rest) => .ok (some value, rest)

def stringBody : Reader String
  | [] => .error .endOfText
  | c :: text => if c = '"' then readString text else .error (rejection (c :: text))

def string : Reader String := fun text => stringBody (skipBlanks text)

def punctuation (mark : Char) (text : List Char) : Except Fault (List Char) :=
  match skipBlanks text with
  | [] => .error .endOfText
  | c :: rest => if c = mark then .ok rest else .error .malformed

structure Field (α : Type) where
  key : String
  read : α → Reader α

def Field.storing {α β : Type} (key : String) (reader : Reader β) (store : α → β → α) : Field α where
  key := key
  read := fun record text =>
    match reader text with
    | .error fault => .error fault
    | .ok (value, rest) => .ok (store record value, rest)

def Field.nested {α β : Type} (key : String) (get : α → β) (reader : β → Reader β)
    (store : α → β → α) : Field α where
  key := key
  read := fun record text =>
    match reader (get record) text with
    | .error fault => .error fault
    | .ok (value, rest) => .ok (store record value, rest)

-- A key of the record may come only once; the value of any other key is passed over.
def readMember {α : Type} (fields : List (Field α)) (seen : List String) (key : String)
    (record : α) (text : List Char) : Except Fault (α × List Char) :=
  match fields.find? (fun field => field.key == key) with
  | some field =>
    if seen.contains key then .error .unsuitable
    else
      match punctuation ':' text with
      | .error fault => .error fault
      | .ok rest => field.read record rest
  | none =>
    match punctuation ':' text with
    | .error fault => .error fault
    | .ok rest =>
      match skipValue rest with
      | .error fault => .error fault
      | .ok rest => .ok (record, rest)

-- A key of the record may come only once; the value of any other key is passed over.
def readMembers {α : Type} (fields : List (Field α)) :
    Nat → List String → α → List Char → Except Fault (α × List Char)
  | 0, _, _, _ => .error .malformed
  | fuel + 1, seen, record, text =>
    match readString text with
    | .error fault => .error fault
    | .ok (key, rest) =>
      match readMember fields seen key record rest with
      | .error fault => .error fault
      | .ok (record, rest) =>
        match skipBlanks rest with
        | [] => .error .endOfText
        | c :: rest =>
          if c = '\x7d' then .ok (record, rest)
          else if c = ',' then
            match skipBlanks rest with
            | [] => .error .endOfText
            | c :: rest =>
              if c = '"' then readMembers fields fuel (key :: seen) record rest
              else .error .malformed
          else .error .malformed

-- Every member has a character, so the length of the text is fuel enough.
def readObject {α : Type} (fields : List (Field α)) (record : α) (text : List Char) :
    Except Fault (α × List Char) :=
  match skipBlanks text with
  | [] => .error .endOfText
  | c :: rest =>
    if c = '\x7d' then .ok (record, rest)
    else if c = '"' then readMembers fields text.length [] record rest
    else .error .malformed

def readElements {α : Type} : List (Field α) → α → List Char → Except Fault (α × List Char)
  | [], record, text =>
    match punctuation ']' text with
    | .error fault => .error fault
    | .ok rest => .ok (record, rest)
  | field :: fields, record, text =>
    match skipBlanks text with
    | [] => .error .endOfText
    | c :: rest =>
      if c = ']' then .ok (record, rest)
      else if c = ',' then
        match skipBlanks rest with
        | [] => .error .endOfText
        | c :: rest =>
          if c = ']' then .error .malformed
          else
            match field.read record (c :: rest) with
            | .error fault => .error fault
            | .ok (record, rest) => readElements fields record rest
      else .error .malformed

def readList {α : Type} (fields : List (Field α)) (record : α) (text : List Char) :
    Except Fault (α × List Char) :=
  match fields, skipBlanks text with
  | _, [] => .error .endOfText
  | [], _ :: _ => readElements [] record text
  | field :: fields, c :: rest =>
    if c = ']' then .ok (record, rest)
    else
      match field.read record (c :: rest) with
      | .error fault => .error fault
      | .ok (record, rest) => readElements fields record rest

def recordBody {α : Type} (fields : List (Field α)) (record : α) : Reader α
  | [] => .error .endOfText
  | c :: text =>
    if c = '\x7b' then readObject fields record text
    else if c = '[' then readList fields record text
    else .error (rejection (c :: text))

def readRecord {α : Type} (fields : List (Field α)) (record : α) : Reader α := fun text =>
  recordBody fields record (skipBlanks text)

def readDocument {α : Type} (reader : Reader α) (text : String) : Except Fault α :=
  match reader text.toList with
  | .error fault => .error fault
  | .ok (value, rest) => if (skipBlanks rest).isEmpty then .ok value else .error .malformed

end Frontend.Json
