import Frontend.Json.Record
import Frontend.Options.Basic

set_option autoImplicit false

namespace Frontend

namespace Policy

def ofName? (name : String) : Option Policy :=
  if name = "abort" then some .abort
  else if name = "propagate" then some .propagate
  else none

def readName : Json.Reader Policy := fun text =>
  match Json.readString text with
  | .error fault => .error fault
  | .ok (name, rest) =>
    match ofName? name with
    | some policy => .ok (policy, rest)
    | none => .error .unsuitable

-- The only key of an object, with nothing for its value. As in any object, a key that does not start with a quote is malformed.
def readTagged : Json.Reader Policy := fun text =>
  match Json.punctuation '"' text with
  | .error fault => .error fault
  | .ok rest =>
    match readName rest with
    | .error fault => .error fault
    | .ok (policy, rest) =>
      match Json.punctuation ':' rest with
      | .error fault => .error fault
      | .ok rest =>
        match Json.null rest with
        | .error fault => .error fault
        | .ok (_, rest) =>
          match Json.punctuation '\x7d' rest with
          | .error fault => .error fault
          | .ok rest => .ok (policy, rest)

def read : Json.Reader Policy := fun text =>
  match Json.skipBlanks text with
  | [] => .error .endOfText
  | c :: rest =>
    if c = '\x7b' then readTagged rest
    else if c = '"' then readName rest
    else .error .malformed

end Policy

def BuildLimits.fields : List (Json.Field BuildLimits) :=
  [.storing "allocPolicy" Policy.read (fun limits policy => { limits with policy := policy }),
   .storing "maxNodes" (Json.optional Json.natural)
     (fun limits maxNodes => { limits with maxNodes := maxNodes })]

def Layout.fields : List (Json.Field Layout) :=
  [.storing "indentWidth" Json.natural (fun layout width => { layout with indentWidth := width }),
   .storing "newLine" Json.string (fun layout newLine => { layout with newLine := newLine })]

namespace Options

def fields : List (Json.Field Options) :=
  [.nested "build" Options.build (Json.readRecord BuildLimits.fields)
     (fun options build => { options with build := build }),
   .nested "printer" Options.printer (Json.readRecord Layout.fields)
     (fun options printer => { options with printer := printer })]

def read (text : String) : Except Json.Fault Options :=
  Json.readDocument (Json.readRecord fields {}) text

end Options

inductive OptionsError where
  | fileNotFound (path : String)
  | fileNotText (path : String)
  | document (fault : Json.Fault)
deriving DecidableEq

def Options.ofContents (path : String) (contents : Option ByteArray) : Except OptionsError Options :=
  match contents with
  | none => .error (.fileNotFound path)
  | some bytes =>
    match String.fromUTF8? bytes with
    | none => .error (.fileNotText path)
    | some text =>
      match Options.read text with
      | .error fault => .error (.document fault)
      | .ok options => .ok options

end Frontend
