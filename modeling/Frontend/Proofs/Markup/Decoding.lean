import Frontend.Proofs.Markup.Marks

set_option autoImplicit false

namespace Frontend.Markup

-- The characters that are lost: the controls below the space, the three blanks among them apart, and two noncharacters.
def Unfit (c : Char) : Prop :=
  (c.toNat < 0x20 ∧ c ≠ '\t' ∧ c ≠ '\n' ∧ c ≠ '\r') ∨ c.toNat = 0xfffe ∨ c.toNat = 0xffff

instance : DecidablePred Unfit := fun c =>
  inferInstanceAs (Decidable ((c.toNat < 0x20 ∧ c ≠ '\t' ∧ c ≠ '\n' ∧ c ≠ '\r') ∨ c.toNat = 0xfffe ∨ c.toNat = 0xffff))

def carried (c : Char) : Char := if Unfit c then '\ufffd' else c

def meanings : List (List Char × Char) := references.zip ['&', '<', '>', '"', '\x27', '\t', '\n', '\r']

-- A reference gives way to what it means, and the pass goes on behind it. Everything else is copied.
def decodeChars : List Char → List Char
  | [] => []
  | c :: rest =>
    match meanings.find? fun meaning => meaning.1.isPrefixOf (c :: rest) with
    | none => c :: decodeChars rest
    | some (reference, meant) => meant :: decodeChars (rest.drop (reference.length - 1))
termination_by text => text.length
decreasing_by
  · simp
  · simp only [List.length_drop, List.length_cons]
    omega

def decode (text : String) : String := String.ofList (decodeChars text.toList)

theorem reference_delimited (reference : List Char) (known : reference ∈ references) :
    ∃ name, reference = ('&' :: name) ++ [';'] ∧ ';' ∉ '&' :: name := by
  have each : ∀ reference ∈ references,
      reference = ('&' :: reference.tail.dropLast) ++ [';'] ∧ ';' ∉ '&' :: reference.tail.dropLast := by decide
  exact ⟨reference.tail.dropLast, each reference known⟩

theorem decode_plain (c : Char) (rest : List Char) (plain : c ≠ '&') : decodeChars (c :: rest) = c :: decodeChars rest := by
  have nothing : (meanings.find? fun meaning => meaning.1.isPrefixOf (c :: rest)) = none := by
    apply List.find?_eq_none.mpr
    intro meaning member begins
    obtain ⟨name, spelled, _⟩ := reference_delimited meaning.1 (List.of_mem_zip member).1
    obtain ⟨behind, split⟩ := List.isPrefixOf_iff_prefix.mp begins
    rw [spelled] at split
    exact plain (List.cons.inj split).1.symm
  rw [decodeChars, nothing]

-- A reference ends at its first semicolon, so that no other one begins like it.
theorem reference_unique (meaning other : List Char × Char) (known : meaning ∈ meanings) (knownToo : other ∈ meanings)
    (rest behind : List Char) (equal : other.1 ++ behind = meaning.1 ++ rest) : other = meaning := by
  have one : ∀ meaning ∈ meanings, ∀ other ∈ meanings, other.1 = meaning.1 → other = meaning := by decide
  obtain ⟨name, spelled, clean⟩ := reference_delimited meaning.1 (List.of_mem_zip known).1
  obtain ⟨otherName, otherSpelled, otherClean⟩ := reference_delimited other.1 (List.of_mem_zip knownToo).1
  rw [spelled, otherSpelled, List.append_assoc, List.append_assoc] at equal
  obtain ⟨same, _⟩ := delimited_unique ';' _ _ _ _ otherClean clean equal
  exact one meaning known other knownToo (by rw [spelled, otherSpelled, same])

theorem decode_reference (reference : List Char) (meant : Char) (rest : List Char) (known : (reference, meant) ∈ meanings) :
    decodeChars (reference ++ rest) = meant :: decodeChars rest := by
  obtain ⟨name, spelled, _⟩ := reference_delimited reference (List.of_mem_zip known).1
  have begins : reference.isPrefixOf (reference ++ rest) = true :=
    List.isPrefixOf_iff_prefix.mpr (List.prefix_append reference rest)
  obtain ⟨found, here⟩ := Option.isSome_iff_exists.mp
    (List.find?_isSome (p := fun meaning => meaning.1.isPrefixOf (reference ++ rest)).mpr ⟨_, known, begins⟩)
  have alike := List.find?_some here
  obtain ⟨behind, split⟩ := List.isPrefixOf_iff_prefix.mp alike
  rw [reference_unique (reference, meant) found known (List.mem_of_find?_eq_some here) rest behind split] at here
  rw [spelled, List.cons_append, List.cons_append] at here ⊢
  rw [decodeChars, here]
  simp

theorem forbidden_iff (c : Char) : isForbidden c = true ↔ Unfit c := by
  simp [isForbidden, Unfit, and_assoc, or_assoc]

theorem escape_char_meaning (c : Char) :
    (escapeChar c, c) ∈ meanings ∧ ¬ Unfit c ∨ escapeChar c = [replacement] ∧ Unfit c ∨
      escapeChar c = [c] ∧ c ≠ '&' ∧ ¬ Unfit c := by
  unfold escapeChar
  split
  · subst_vars
    exact Or.inl (by decide)
  case isFalse special =>
    iterate 7
      split
      · subst_vars
        exact Or.inl (by decide)
    split
    case isTrue forbidden => exact Or.inr (Or.inl ⟨rfl, (forbidden_iff c).mp forbidden⟩)
    case isFalse allowed => exact Or.inr (Or.inr ⟨rfl, special, fun unfit => allowed ((forbidden_iff c).mpr unfit)⟩)

theorem decode_escaped_char (c : Char) (rest : List Char) :
    decodeChars (escapeChar c ++ rest) = carried c :: decodeChars rest := by
  rcases escape_char_meaning c with ⟨known, fit⟩ | ⟨replaced, unfit⟩ | ⟨plain, special, fit⟩
  · rw [decode_reference _ _ rest known, carried, if_neg fit]
  · rw [replaced, carried, if_pos unfit]
    exact decode_plain replacement rest (by decide)
  · rw [plain, carried, if_neg fit]
    exact decode_plain c rest special

theorem decode_escaped (chars : List Char) : decodeChars (chars.flatMap escapeChar) = chars.map carried := by
  induction chars with
  | nil => rw [List.flatMap_nil, decodeChars, List.map_nil]
  | cons c chars ih => rw [List.flatMap_cons, decode_escaped_char, ih, List.map_cons]

theorem carried_fit (chars : List Char) (fit : ∀ c ∈ chars, ¬ Unfit c) : chars.map carried = chars := by
  have kept : ∀ c ∈ chars, carried c = id c := fun c member => if_neg (fit c member)
  rw [List.map_congr_left kept]
  exact List.map_id chars

theorem escape_char_nonempty (c : Char) : 0 < (escapeChar c).length := by
  have each : ∀ reference ∈ references, 0 < reference.length := by decide
  rcases escape_char_cases c with reference | replaced | ⟨_, plain⟩
  · exact each _ reference
  · simp [replaced]
  · simp [plain]

theorem escaped_longer (chars : List Char) : chars.length ≤ (chars.flatMap escapeChar).length := by
  induction chars with
  | nil => exact Nat.le_refl 0
  | cons c chars ih =>
      have first := escape_char_nonempty c
      rw [List.flatMap_cons, List.length_append, List.length_cons]
      omega

-- A reference makes the text longer, and a replaced character is another one.
theorem escape_char_changes (c : Char) (rest : List Char) (special : needsEscape c = true) :
    escapeChar c ++ rest.flatMap escapeChar ≠ c :: rest := by
  have long : ∀ reference ∈ references, 1 < reference.length := by decide
  intro equal
  rcases escape_char_cases c with reference | replaced | ⟨plain, _⟩
  · have lengths := congrArg List.length equal
    have longer := long _ reference
    have behind := escaped_longer rest
    rw [List.length_append, List.length_cons] at lengths
    omega
  · rw [replaced] at equal
    have same : replacement = c := (List.cons.inj equal).1
    rw [← same] at special
    exact absurd special (by decide)
  · rw [plain] at special
    cases special

theorem escaped_same (chars : List Char) :
    chars.flatMap escapeChar = chars ↔ ∀ c ∈ chars, needsEscape c = false := by
  induction chars with
  | nil => simp
  | cons c chars ih =>
      rw [List.flatMap_cons, List.forall_mem_cons]
      cases special : needsEscape c with
      | true =>
          have changed := escape_char_changes c chars special
          simp [changed]
      | false =>
          rw [escape_char_plain c special, List.singleton_append, List.cons.injEq, ih]
          simp

theorem decode_escape (text : String) : decode (escape text) = text.map carried := by
  rw [decode, escape_chars, decode_escaped, ← String.toList_map, String.ofList_toList]

-- The last two parts say that the short cut for text that needs no escape agrees with the way through its characters.
theorem escape_loses_unfit_only (text other : String) :
    decode (escape text) = text.map carried ∧
    ((∀ c ∈ text.toList, ¬ Unfit c) → (∀ c ∈ other.toList, ¬ Unfit c) → escape text = escape other → text = other) ∧
    (escape text = text ↔ ∀ c ∈ text.toList, needsEscape c = false) ∧
    escape (text ++ other) = escape text ++ escape other ∧
    escape text = String.ofList (text.toList.flatMap escapeChar) ∧
    ∀ c, needsEscape c = true ↔ escapeChar c ≠ [c] := by
  refine ⟨decode_escape text, ?_, ?_, ?_, ?_, ?_⟩
  · intro fit fitToo equal
    have same := congrArg decode equal
    rw [decode_escape, decode_escape, ← String.toList_inj, String.toList_map, String.toList_map, carried_fit _ fit,
      carried_fit _ fitToo] at same
    exact String.toList_inj.mp same
  · rw [← String.toList_inj, escape_chars]
    exact escaped_same text.toList
  · rw [← String.toList_inj, String.toList_append, escape_chars, escape_chars, escape_chars, String.toList_append,
      List.flatMap_append]
  · rw [← String.toList_inj, escape_chars, String.toList_ofList]
  · intro c
    constructor
    · intro special same
      exact escape_char_changes c [] special (by rw [same]; rfl)
    · intro changed
      cases special : needsEscape c with
      | true => rfl
      | false => exact absurd (escape_char_plain c special) changed

-- A text that looks like a reference is not taken for the character that the reference stands for.
theorem escape_loses_unfit_only_lookalike :
    (∀ c ∈ "&lt;".toList, ¬ Unfit c) ∧ (∀ c ∈ "<".toList, ¬ Unfit c) ∧ escape "&lt;" ≠ escape "<" ∧
    decode (escape "\x01&lt;\t") = "\ufffd&lt;\t" := by
  have fit : ∀ c ∈ "&lt;".toList, ¬ Unfit c := by
    have chars : "&lt;".toList = ['&', 'l', 't', ';'] := by decide
    simp [chars, Unfit]
  have fitToo : ∀ c ∈ "<".toList, ¬ Unfit c := by
    have chars : "<".toList = ['<'] := by decide
    simp [chars, Unfit]
  obtain ⟨_, injective, _⟩ := escape_loses_unfit_only "&lt;" "<"
  obtain ⟨decoded, _⟩ := escape_loses_unfit_only "\x01&lt;\t" ""
  refine ⟨fit, fitToo, fun equal => absurd (injective fit fitToo equal) (by decide), ?_⟩
  rw [decoded, ← String.toList_inj, String.toList_map]
  decide

end Frontend.Markup
