import Frontend.Options.Reader
import Frontend.Options.Writer
import Frontend.Proofs.Json.Members

set_option autoImplicit false

namespace Frontend

open Json

-- What a document tells about each option. Of a key that is missing it tells nothing.
structure GivenLimits where
  policy : Option Policy := none
  maxNodes : Option (Option Nat) := none

structure GivenLayout where
  indentWidth : Option Nat := none
  newLine : Option String := none

structure GivenOptions where
  build : Option GivenLimits := none
  printer : Option GivenLayout := none

def GivenLimits.fill (given : GivenLimits) (limits : BuildLimits) : BuildLimits :=
  ⟨given.policy.getD limits.policy, given.maxNodes.getD limits.maxNodes⟩

def GivenLayout.fill (given : GivenLayout) (layout : Layout) : Layout :=
  ⟨given.indentWidth.getD layout.indentWidth, given.newLine.getD layout.newLine⟩

def GivenOptions.options (given : GivenOptions) : Options :=
  ⟨(given.build.getD {}).fill {}, (given.printer.getD {}).fill {}⟩

-- A whole number of 64 bits, without sign, fraction and exponent.
def NaturalText (text : List Char) (n : Nat) : Prop := Decimal.WholeText text ∧ Decimal.value text = n ∧ n < UInt64.size

inductive OptionalText {β : Type} (spells : List Char → β → Prop) : List Char → Option β → Prop where
  | nothing : OptionalText spells ['n', 'u', 'l', 'l'] none
  | given (text : List Char) (value : β) (spelled : spells text value) : OptionalText spells text (some value)

inductive StringText : List Char → String → Prop where
  | quoted (spelled : List Char) (value : String) (spelling : SpelledText spelled value.toList) :
      StringText ('"' :: (spelled ++ ['"'])) value

-- The name of a policy, alone or as the only key of an object.
inductive PolicyText : List Char → Policy → Prop where
  | name (text : List Char) (policy : Policy) (written : StringText text policy.name) : PolicyText text policy
  | tagged (text : List Char) (policy : Policy) (object : ObjectText [(policy.name, ['n', 'u', 'l', 'l'])] text) :
      PolicyText text policy

def OthersFormed (known : List String) (members : List (String × List Char)) : Prop :=
  ∀ member ∈ members, member.1 ∉ known → Formed .value member.2

def LimitsText (text : List Char) (given : GivenLimits) : Prop :=
  ∃ members, ObjectText members text ∧ Tells members "allocPolicy" PolicyText given.policy ∧
    Tells members "maxNodes" (OptionalText NaturalText) given.maxNodes ∧ OthersFormed ["allocPolicy", "maxNodes"] members

def LayoutText (text : List Char) (given : GivenLayout) : Prop :=
  ∃ members, ObjectText members text ∧ Tells members "indentWidth" NaturalText given.indentWidth ∧
    Tells members "newLine" StringText given.newLine ∧ OthersFormed ["indentWidth", "newLine"] members

def OptionsText (text : List Char) (given : GivenOptions) : Prop :=
  ∃ members, ObjectText members text ∧ Tells members "build" LimitsText given.build ∧
    Tells members "printer" LayoutText given.printer ∧ OthersFormed ["build", "printer"] members

def Document (text : String) (given : GivenOptions) : Prop :=
  ∃ front object behind, text.toList = front ++ (object ++ behind) ∧ Blank front ∧ Blank behind ∧ OptionsText object given

section Scalars

theorem natural_reads (text : List Char) (n : Nat) (written : NaturalText text n) : Reads Json.natural text n := by
  obtain ⟨whole, rfl, small⟩ := written
  intro gap rest blank ended
  have numeral : Decimal.NumeralText ⟨text, none, none⟩ text := by
    simpa using Decimal.NumeralText.parts ⟨text, none, none⟩ [] [] whole .absent .absent
  have read := Decimal.read_numeral _ text rest numeral (ended_halted rest ended)
  have plain : isPlain ⟨text, none, none⟩ = true := by simpa [isPlain] using small
  obtain ⟨first, later, rfl⟩ := List.exists_cons_of_ne_nil whole.1.1
  have digit := whole.1.2 first List.mem_cons_self
  obtain ⟨visible, apart⟩ := digit_apart first digit
  have minus : first ≠ '-' := by
    rintro rfl
    exact apart (by simp)
  rw [List.cons_append] at read ⊢
  rw [Json.natural, skip_to gap _ first blank visible, naturalBody, if_neg minus, if_pos digit]
  simp only [readNumber, read, plain, if_true, Bool.false_eq_true, if_false]

theorem null_reads : Reads Json.null ['n', 'u', 'l', 'l'] () := by
  intro gap rest blank _
  rw [Json.null, List.cons_append, skip_to gap _ 'n' blank rfl]
  rfl

theorem optional_reads (text : List Char) (value : Option Nat) (written : OptionalText NaturalText text value) :
    Reads (Json.optional Json.natural) text value := by
  intro gap rest blank ended
  cases written with
  | nothing =>
      have head : (skipBlanks (gap ++ (['n', 'u', 'l', 'l'] ++ rest))).head? = some 'n' := by
        rw [List.cons_append, skip_to gap _ 'n' blank rfl]
        rfl
      rw [Json.optional, if_pos head, null_reads gap rest blank ended]
  | given _ n spelled =>
      have read := natural_reads text n spelled gap rest blank ended
      obtain ⟨first, later, rfl⟩ := List.exists_cons_of_ne_nil spelled.1.1.1
      obtain ⟨visible, apart⟩ := digit_apart first (spelled.1.1.2 first List.mem_cons_self)
      have head : (skipBlanks (gap ++ (first :: later ++ rest))).head? ≠ some 'n' := by
        rw [List.cons_append, skip_to gap _ first blank visible]
        intro same
        rw [Option.some.inj same] at apart
        exact apart (by simp)
      rw [Json.optional, if_neg head, read]

theorem string_reads (text : List Char) (value : String) (written : StringText text value) : Reads Json.string text value := by
  intro gap rest blank _
  cases written with
  | quoted spelled _ spelling =>
      rw [Json.string, List.cons_append, skip_to gap _ '"' blank rfl, stringBody, if_pos rfl, List.append_assoc,
        List.singleton_append]
      exact read_key value spelled rest spelling

theorem policy_named (policy : Policy) : Policy.ofName? policy.name = some policy := by
  cases policy <;> rfl

theorem policy_name_reads (policy : Policy) (spelled rest : List Char) (spelling : SpelledText spelled policy.name.toList) :
    Policy.readName (spelled ++ '"' :: rest) = .ok (policy, rest) := by
  simp only [Policy.readName, read_key policy.name spelled rest spelling, policy_named]

theorem policy_reads (text : List Char) (policy : Policy) (written : PolicyText text policy) : Reads Policy.read text policy := by
  intro gap rest blank _
  cases written with
  | name written =>
      cases written with
      | quoted spelled _ spelling =>
          rw [Policy.read, List.cons_append, skip_to gap _ '"' blank rfl, List.append_assoc, List.singleton_append]
          exact policy_name_reads policy spelled rest spelling
  | tagged object =>
      cases object with
      | full _ inner inside blankInner members =>
          cases members with
          | last _ spelled before between _ behind spelling blankBefore blankBetween blankBehind =>
              have ended := ended_gap behind _ blankBehind (ended_cons '\x7d' rest (by simp))
              rw [Policy.read, List.cons_append, skip_to gap _ '\x7b' blank rfl]
              simp only [memberText, List.append_assoc, List.cons_append, List.nil_append, if_true]
              simp only [Policy.readTagged, read_mark '"' inner _ blankInner rfl, policy_name_reads policy spelled _ spelling,
                read_mark ':' before _ blankBefore rfl]
              have nothing := null_reads between _ blankBetween ended
              simp only [List.cons_append, List.nil_append] at nothing
              simp only [nothing, read_mark '\x7d' behind rest blankBehind rfl]
          | more _ _ _ _ _ _ _ _ _ _ _ _ _ _ others => cases others

end Scalars

-- The fields of each record, in their order, with what the document does to them.
section Records

theorem limits_reads (text : List Char) (given : GivenLimits) (written : LimitsText text given) (start : BuildLimits) :
    Reads (readRecord BuildLimits.fields start) text (given.fill start) := by
  obtain ⟨members, object, policyTold, nodesTold, formed⟩ := written
  have read := read_settings (BuildLimits.fields.zip
      [given.policy.elim id fun policy limits => { limits with policy := policy },
        given.maxNodes.elim id fun maxNodes limits => { limits with maxNodes := maxNodes }])
    (by simp [BuildLimits.fields, Field.storing]) ?_ members ?_ text object formed start
  · obtain ⟨policy, maxNodes⟩ := given
    cases policy <;> cases maxNodes <;> exact read
  · refine List.pairwise_pair.mpr ?_
    intro limits
    cases given.policy <;> cases given.maxNodes <;> rfl
  · refine List.forall_mem_cons.mpr ⟨?_, List.forall_mem_singleton.mpr ?_⟩
    · exact tells_storing members _ _ _ PolicyText policy_reads given.policy policyTold
    · exact tells_storing members _ _ _ _ optional_reads given.maxNodes nodesTold

theorem layout_reads (text : List Char) (given : GivenLayout) (written : LayoutText text given) (start : Layout) :
    Reads (readRecord Layout.fields start) text (given.fill start) := by
  obtain ⟨members, object, widthTold, lineTold, formed⟩ := written
  have read := read_settings (Layout.fields.zip
      [given.indentWidth.elim id fun indentWidth layout => { layout with indentWidth := indentWidth },
        given.newLine.elim id fun newLine layout => { layout with newLine := newLine }])
    (by simp [Layout.fields, Field.storing]) ?_ members ?_ text object formed start
  · obtain ⟨indentWidth, newLine⟩ := given
    cases indentWidth <;> cases newLine <;> exact read
  · refine List.pairwise_pair.mpr ?_
    intro layout
    cases given.indentWidth <;> cases given.newLine <;> rfl
  · refine List.forall_mem_cons.mpr ⟨?_, List.forall_mem_singleton.mpr ?_⟩
    · exact tells_storing members _ _ _ NaturalText natural_reads given.indentWidth widthTold
    · exact tells_storing members _ _ _ StringText string_reads given.newLine lineTold

theorem options_reads (text : List Char) (given : GivenOptions) (written : OptionsText text given) :
    Reads (readRecord Options.fields {}) text given.options := by
  obtain ⟨members, object, buildTold, printerTold, formed⟩ := written
  have read := read_settings (Options.fields.zip
      [given.build.elim id fun build options => { options with build := build.fill options.build },
        given.printer.elim id fun printer options => { options with printer := printer.fill options.printer }])
    (by simp [Options.fields, Field.nested]) ?_ members ?_ text object formed {}
  · obtain ⟨build, printer⟩ := given
    cases build <;> cases printer <;> exact read
  · refine List.pairwise_pair.mpr ?_
    intro options
    cases given.build <;> cases given.printer <;> rfl
  · refine List.forall_mem_cons.mpr ⟨?_, List.forall_mem_singleton.mpr ?_⟩
    · exact tells_nested members _ _ _ _ LimitsText GivenLimits.fill limits_reads given.build buildTold
    · exact tells_nested members _ _ _ _ LayoutText GivenLayout.fill layout_reads given.printer printerTold

theorem document_read (text : String) (given : GivenOptions) (document : Document text given) :
    Options.read text = .ok given.options := by
  obtain ⟨front, object, behind, split, blankFront, blankBehind, written⟩ := document
  have ended : Ended behind := by
    rw [← List.append_nil behind]
    exact ended_gap behind [] blankBehind (by simp [Ended])
  have finished : skipBlanks behind = [] := by
    rw [← List.append_nil behind, skip_gap behind [] blankBehind]
    rfl
  rw [Options.read, readDocument, split, options_reads object given written front behind blankFront ended]
  simp [finished]

end Records

-- Two documents that give the same are read alike, whatever the order of their members, their blanks and what else they hold.
theorem Options.read_given_or_default (text : String) (given : GivenOptions) (document : Document text given) :
    Options.read text = .ok given.options ∧ ∀ other, Document other given → Options.read other = Options.read text := by
  have read := document_read text given document
  refine ⟨read, ?_⟩
  intro other same
  rw [read]
  exact document_read other given same

-- An escape in a known key, and around it an unknown one that stands twice, once with brackets in a nested string and with
-- half a surrogate pair.
def scattered : String :=
  "\x7b \"z\" : [1.5e+3,\x7b\"\\ud800\":\"]\"\x7d] ,\"b\\u0075ild\":\x7b\"maxNodes\":7\x7d, \"z\":-0\x7d\n"

theorem scattered_nested : Formed .value "[1.5e+3,\x7b\"\\ud800\":\"]\"\x7d]".toList := by
  have whole : Decimal.WholeText ['1'] := by simp [Decimal.WholeText, Decimal.DigitsText, Decimal.isDigit]
  have five : Decimal.DigitsText ['5'] := by simp [Decimal.DigitsText, Decimal.isDigit]
  have three : Decimal.DigitsText ['3'] := by simp [Decimal.DigitsText, Decimal.isDigit]
  have number := Formed.number _ _ (.parts ⟨['1'], some ['5'], some (false, ['3'])⟩ _ _ whole (.pointed _ five)
    (.signed 'e' false _ (Or.inl rfl) three))
  have half : CodeText ['d', '8', '0', '0'] 0xd800 :=
    .digits ('d', 13) ('8', 8) ('0', 0) ('0', 0) (by decide) (by decide) (by decide) (by decide)
  have bracket := Formed.string [']'] (.plain ']' [] (by decide) (by decide) (by decide) .nothing)
  have member := Formed.lastMember _ [] [] _ [] (.code _ _ [] half .nothing) blank_nil blank_nil blank_nil bracket
  have object := Formed.object [] _ blank_nil member
  exact .list [] _ blank_nil (.element _ [] [] _ blank_nil blank_nil number (.lastElement _ [] blank_nil object))

theorem scattered_limits : LimitsText "\x7b\"maxNodes\":7\x7d".toList { maxNodes := some (some 7) } := by
  have seven : NaturalText ['7'] 7 := by
    simp [NaturalText, Decimal.WholeText, Decimal.DigitsText, Decimal.isDigit, Decimal.value, Decimal.digitValue, UInt64.size]
  have key : SpelledText "maxNodes".toList "maxNodes".toList := spelled_plain _ (by simp)
  have object := ObjectText.full _ [] _ blank_nil (.last "maxNodes" _ [] [] ['7'] [] key blank_nil blank_nil blank_nil)
  refine ⟨_, object, ?_, ?_, ?_⟩
  · simp [Tells]
  · exact ⟨['7'], by simp, .given ['7'] 7 seven⟩
  · simp [OthersFormed]

theorem scattered_document : Document scattered { build := some { maxNodes := some (some 7) } } := by
  have space : Blank [' '] := by simp [Blank]
  have line : Blank ['\n'] := by simp [Blank]
  have zero : Decimal.NumeralText ⟨['0'], none, none⟩ ['0'] :=
    .parts ⟨['0'], none, none⟩ [] [] (by simp [Decimal.WholeText, Decimal.DigitsText, Decimal.isDigit]) .absent .absent
  have other : SpelledText ['z'] "z".toList := spelled_plain _ (by simp)
  have code : CodeText ['0', '0', '7', '5'] 'u'.toNat :=
    .digits ('0', 0) ('0', 0) ('7', 7) ('5', 5) (by decide) (by decide) (by decide) (by decide)
  have build : SpelledText "b\\u0075ild".toList "build".toList :=
    .plain 'b' _ _ (by decide) (by decide) (by decide) (.code _ 'u' _ _ code (spelled_plain ['i', 'l', 'd'] (by simp)))
  have last := MembersText.last "z" _ [] [] ['-', '0'] [] other blank_nil blank_nil blank_nil
  have known := MembersText.more "build" _ [] [] "\x7b\"maxNodes\":7\x7d".toList [] [' '] _ _ build blank_nil blank_nil
    blank_nil space last
  have first := MembersText.more "z" _ [' '] [' '] "[1.5e+3,\x7b\"\\ud800\":\"]\"\x7d]".toList [' '] [] _ _ other space
    space space blank_nil known
  refine ⟨[], _, ['\n'], ?_, blank_nil, line, _, .full _ [' '] _ space first, ?_, ?_, ?_⟩
  · rfl
  · exact ⟨_, by simp, scattered_limits⟩
  · simp [Tells]
  · simpa [OthersFormed, Formed.negative _ _ zero] using scattered_nested

theorem Options.read_given_or_default_scattered :
    Document scattered { build := some { maxNodes := some (some 7) } } ∧
      Options.read scattered = .ok ⟨⟨.abort, some 7⟩, ⟨2, "\n"⟩⟩ :=
  ⟨scattered_document, (Options.read_given_or_default scattered _ scattered_document).1⟩

end Frontend
