import Frontend.Proofs.Json.Scalars

set_option autoImplicit false

namespace Frontend.Json

theorem skip_open (expecting : Expecting) (brackets : List Bracket) (text : List Char)
    (going : ¬ (expecting = .more ∧ brackets = [])) :
    skipTokens expecting brackets text =
      (skipToken expecting brackets (skipBlanks text)).bind fun progress =>
        skipTokens progress.expecting progress.brackets progress.rest := by
  rw [skipTokens, if_neg going]
  split
  · rename_i failed
    rw [failed]
    rfl
  · rename_i done
    rw [done]
    rfl

theorem skip_step (expecting : Expecting) (brackets : List Bracket) (c : Char) (text : List Char) (progress : Progress)
    (going : ¬ (expecting = .more ∧ brackets = [])) (visible : isBlank c = false)
    (token : skipToken expecting brackets (c :: text) = .ok progress) :
    skipTokens expecting brackets (c :: text) = skipTokens progress.expecting progress.brackets progress.rest := by
  rw [skip_open expecting brackets _ going, skip_visible c text visible, token]
  rfl

theorem skip_tokens_gap (expecting : Expecting) (brackets : List Bracket) (gap text : List Char)
    (going : ¬ (expecting = .more ∧ brackets = [])) (blank : Blank gap) :
    skipTokens expecting brackets (gap ++ text) = skipTokens expecting brackets text := by
  rw [skip_open expecting brackets _ going, skip_open expecting brackets text going, skip_gap gap text blank]

-- What stands behind a value: blanks, then a comma or the bracket that closes.
theorem skip_comma (bracket : Bracket) (brackets : List Bracket) (behind gap text : List Char) (blank : Blank behind)
    (blankNext : Blank gap) :
    skipTokens .more (bracket :: brackets) (behind ++ ',' :: (gap ++ text)) =
      skipTokens bracket.afterComma (bracket :: brackets) text := by
  rw [skip_tokens_gap _ _ behind _ (by simp) blank,
    skip_step .more (bracket :: brackets) ',' _ ⟨bracket.afterComma, bracket :: brackets, gap ++ text⟩ (by simp) rfl rfl]
  exact skip_tokens_gap _ _ gap text (by simp) blankNext

theorem skip_close (bracket : Bracket) (brackets : List Bracket) (behind rest : List Char) (blank : Blank behind) :
    skipTokens .more (bracket :: brackets) (behind ++ bracket.closing :: rest) = skipTokens .more brackets rest := by
  rw [skip_tokens_gap _ _ behind _ (by simp) blank]
  cases bracket with
  | list => exact skip_step .more _ ']' rest ⟨.more, brackets, rest⟩ (by simp) rfl rfl
  | object => exact skip_step .more _ '\x7d' rest ⟨.more, brackets, rest⟩ (by simp) rfl rfl

theorem skip_scalar (c : Char) (text rest : List Char) (brackets : List Bracket) (visible : isBlank c = false)
    (list : c ≠ '[') (object : c ≠ '\x7b') (scalar : skipScalar (c :: text) = .ok rest) :
    skipTokens .value brackets (c :: text) = skipTokens .more brackets rest := by
  refine skip_step .value brackets c text ⟨.more, brackets, rest⟩ (by simp) visible ?_
  rw [skipToken, skipValueStart, if_neg list, if_neg object, scalar]

theorem digit_apart (c : Char) (digit : Decimal.isDigit c = true) :
    isBlank c = false ∧ c ∉ ['[', ']', '\x7b', 'n', 't', 'f', '"', '-'] := by
  have apart : ∀ other, Decimal.isDigit other = false → c ≠ other := by
    rintro other plain rfl
    rw [digit] at plain
    cases plain
  refine ⟨?_, ?_⟩
  · rw [← Bool.not_eq_true, blank_iff]
    simp only [List.mem_cons, List.not_mem_nil, or_false, not_or]
    exact ⟨apart _ rfl, apart _ rfl, apart _ rfl, apart _ rfl⟩
  · simp only [List.mem_cons, List.not_mem_nil, or_false, not_or]
    exact ⟨apart _ rfl, apart _ rfl, apart _ rfl, apart _ rfl, apart _ rfl, apart _ rfl, apart _ rfl, apart _ rfl⟩

theorem skip_number (numeral : Decimal.Numeral) (text rest : List Char) (brackets : List Bracket)
    (written : Decimal.NumeralText numeral text) (ended : Ended rest) :
    skipTokens .value brackets (text ++ rest) = skipTokens .more brackets rest := by
  have read := Decimal.read_numeral numeral text rest written (ended_halted rest ended)
  obtain ⟨first, later, rfl, digit⟩ := Decimal.numeral_head numeral text written
  obtain ⟨visible, apart⟩ := digit_apart first digit
  simp only [List.mem_cons, List.not_mem_nil, or_false, not_or] at apart
  obtain ⟨list, _, object, null, yes, no, quote, minus⟩ := apart
  rw [List.cons_append] at read ⊢
  refine skip_scalar first _ rest brackets visible list object ?_
  rw [skipScalar, if_neg null, if_neg yes, if_neg no, if_neg quote, if_neg minus, if_pos digit, read]

theorem skip_negative (numeral : Decimal.Numeral) (text rest : List Char) (brackets : List Bracket)
    (written : Decimal.NumeralText numeral text) (ended : Ended rest) :
    skipTokens .value brackets ('-' :: (text ++ rest)) = skipTokens .more brackets rest := by
  have read := Decimal.read_numeral numeral text rest written (ended_halted rest ended)
  refine skip_scalar '-' _ rest brackets rfl (by decide) (by decide) ?_
  rw [skipScalar, if_neg (by decide), if_neg (by decide), if_neg (by decide), if_neg (by decide), if_pos rfl, read]

theorem skip_string (text rest : List Char) (brackets : List Bracket) (quoted : QuotedText text) :
    skipTokens .value brackets ('"' :: (text ++ '"' :: rest)) = skipTokens .more brackets rest := by
  refine skip_scalar '"' _ rest brackets rfl (by decide) (by decide) ?_
  rw [skipScalar, if_neg (by decide), if_neg (by decide), if_neg (by decide), if_pos rfl]
  exact skip_quoted text rest quoted

-- Behind a bracket that opens, anything but its end is read as behind a comma.
theorem skip_first_element (brackets : List Bracket) (gap text : List Char) (blank : Blank gap)
    (first : (skipBlanks text).head? ≠ some ']') :
    skipTokens .firstElement brackets (gap ++ text) = skipTokens .value brackets text := by
  have same : skipToken .firstElement brackets (skipBlanks text) = skipToken .value brackets (skipBlanks text) := if_neg first
  rw [skip_tokens_gap _ _ gap text (by simp) blank, skip_open _ _ text (by simp), same, ← skip_open .value _ text (by simp)]

theorem skip_first_member (brackets : List Bracket) (gap text : List Char) (blank : Blank gap)
    (first : (skipBlanks text).head? ≠ some '\x7d') :
    skipTokens .firstMember brackets (gap ++ text) = skipTokens .member brackets text := by
  have same : skipToken .firstMember brackets (skipBlanks text) = skipToken .member brackets (skipBlanks text) := if_neg first
  rw [skip_tokens_gap _ _ gap text (by simp) blank, skip_open _ _ text (by simp), same, ← skip_open .member _ text (by simp)]

theorem skip_key (key before gap text : List Char) (brackets : List Bracket) (quoted : QuotedText key)
    (blankBefore : Blank before) (blank : Blank gap) :
    skipTokens .member brackets ('"' :: (key ++ '"' :: (before ++ ':' :: (gap ++ text)))) = skipTokens .value brackets text := by
  rw [skip_step .member brackets '"' _ ⟨.value, brackets, gap ++ text⟩ (by simp) rfl]
  · exact skip_tokens_gap _ _ gap text (by simp) blank
  · rw [skipToken, skipKey, if_pos rfl, skip_quoted key _ quoted]
    simp only [skip_gap before _ blankBefore, skip_visible ':' _ rfl, if_true]

theorem value_head (text : List Char) (formed : Formed .value text) :
    ∃ c later, text = c :: later ∧ isBlank c = false ∧ c ≠ ']' := by
  cases formed with
  | word _ known =>
      simp only [List.mem_cons, List.not_mem_nil, or_false] at known
      rcases known with rfl | rfl | rfl
      · exact ⟨'n', _, rfl, rfl, by decide⟩
      · exact ⟨'t', _, rfl, rfl, by decide⟩
      · exact ⟨'f', _, rfl, rfl, by decide⟩
  | number numeral _ written =>
      obtain ⟨first, later, split, digit⟩ := Decimal.numeral_head numeral text written
      obtain ⟨visible, apart⟩ := digit_apart first digit
      exact ⟨first, later, split, visible, by simp_all⟩
  | negative numeral text _ => exact ⟨'-', _, rfl, rfl, by decide⟩
  | string text _ => exact ⟨'"', _, rfl, rfl, by decide⟩
  | emptyList gap _ => exact ⟨'[', _, rfl, rfl, by decide⟩
  | list gap inside _ _ => exact ⟨'[', _, rfl, rfl, by decide⟩
  | emptyObject gap _ => exact ⟨'\x7b', _, rfl, rfl, by decide⟩
  | object gap inside _ _ => exact ⟨'\x7b', _, rfl, rfl, by decide⟩

theorem elements_head (text rest : List Char) (formed : Formed .elements text) : (skipBlanks (text ++ rest)).head? ≠ some ']' := by
  have apart : ∀ value later, Formed .value value → (skipBlanks (value ++ later)).head? ≠ some ']' := by
    intro value later formed
    obtain ⟨c, tail, rfl, visible, other⟩ := value_head value formed
    rw [List.cons_append, skip_visible c _ visible]
    simpa using other
  cases formed with
  | lastElement value behind _ formed =>
      rw [List.append_assoc]
      exact apart value _ formed
  | element value behind gap others _ _ formed _ =>
      rw [List.append_assoc]
      exact apart value _ formed

theorem members_head (text rest : List Char) (formed : Formed .members text) : (skipBlanks (text ++ rest)).head? ≠ some '\x7d' := by
  cases formed with
  | lastMember key before gap value behind _ _ _ _ _ =>
      rw [memberText, List.cons_append, skip_visible _ _ rfl]
      simp
  | member key before gap value behind next others _ _ _ _ _ _ _ =>
      rw [memberText, List.cons_append, List.cons_append, skip_visible _ _ rfl]
      simp

-- What passing over each part of the grammar comes to. Of a list or an object only the bracket that closes it is left.
def Skipped : Part → List Char → Prop
  | .value, text => ∀ brackets rest, Ended rest → skipTokens .value brackets (text ++ rest) = skipTokens .more brackets rest
  | .elements, text => ∀ brackets rest,
      skipTokens .value (.list :: brackets) (text ++ ']' :: rest) = skipTokens .more brackets rest
  | .members, text => ∀ brackets rest,
      skipTokens .member (.object :: brackets) (text ++ '\x7d' :: rest) = skipTokens .more brackets rest

theorem formed_skipped (part : Part) (text : List Char) (formed : Formed part text) : Skipped part text := by
  induction formed with
  | word text known =>
      intro brackets rest _
      simp only [List.mem_cons, List.not_mem_nil, or_false] at known
      rcases known with rfl | rfl | rfl
      · exact skip_scalar 'n' _ rest brackets rfl (by decide) (by decide) rfl
      · exact skip_scalar 't' _ rest brackets rfl (by decide) (by decide) rfl
      · exact skip_scalar 'f' _ rest brackets rfl (by decide) (by decide) rfl
  | number numeral text written =>
      intro brackets rest ended
      exact skip_number numeral text rest brackets written ended
  | negative numeral text written =>
      intro brackets rest ended
      exact skip_negative numeral text rest brackets written ended
  | string text quoted =>
      intro brackets rest _
      rw [List.cons_append, List.append_assoc]
      exact skip_string text rest brackets quoted
  | emptyList gap blank =>
      intro brackets rest _
      rw [List.cons_append, List.append_assoc, List.singleton_append,
        skip_step .value brackets '[' _ ⟨.firstElement, .list :: brackets, gap ++ ']' :: rest⟩ (by simp) rfl rfl,
        skip_tokens_gap _ _ gap _ (by simp) blank]
      exact skip_step .firstElement _ ']' rest ⟨.more, brackets, rest⟩ (by simp) rfl rfl
  | list gap inside blank elements ih =>
      intro brackets rest _
      rw [List.cons_append, List.append_assoc, List.append_assoc, List.singleton_append,
        skip_step .value brackets '[' _ ⟨.firstElement, .list :: brackets, gap ++ (inside ++ ']' :: rest)⟩ (by simp) rfl rfl,
        skip_first_element _ gap _ blank (elements_head inside _ elements)]
      exact ih brackets rest
  | emptyObject gap blank =>
      intro brackets rest _
      rw [List.cons_append, List.append_assoc, List.singleton_append,
        skip_step .value brackets '\x7b' _ ⟨.firstMember, .object :: brackets, gap ++ '\x7d' :: rest⟩ (by simp) rfl rfl,
        skip_tokens_gap _ _ gap _ (by simp) blank]
      exact skip_step .firstMember _ '\x7d' rest ⟨.more, brackets, rest⟩ (by simp) rfl rfl
  | object gap inside blank members ih =>
      intro brackets rest _
      rw [List.cons_append, List.append_assoc, List.append_assoc, List.singleton_append,
        skip_step .value brackets '\x7b' _ ⟨.firstMember, .object :: brackets, gap ++ (inside ++ '\x7d' :: rest)⟩ (by simp) rfl
          rfl,
        skip_first_member _ gap _ blank (members_head inside _ members)]
      exact ih brackets rest
  | lastElement value behind blank _ ih =>
      intro brackets rest
      rw [List.append_assoc, ih _ _ (ended_gap behind _ blank (ended_cons ']' rest (by simp)))]
      exact skip_close .list brackets behind rest blank
  | element value behind gap others blank blankNext _ _ ih ihOthers =>
      intro brackets rest
      simp only [List.append_assoc, List.cons_append]
      rw [ih _ _ (ended_gap behind _ blank (ended_cons ',' _ (by simp))), skip_comma .list brackets behind gap _ blank blankNext]
      exact ihOthers brackets rest
  | lastMember key before gap value behind quoted blankBefore blankGap blank _ ih =>
      intro brackets rest
      simp only [memberText, List.append_assoc, List.cons_append]
      rw [skip_key key before gap _ _ quoted blankBefore blankGap,
        ih _ _ (ended_gap behind _ blank (ended_cons '\x7d' rest (by simp)))]
      exact skip_close .object brackets behind rest blank
  | member key before gap value behind next others quoted blankBefore blankGap blank blankNext _ _ ih ihOthers =>
      intro brackets rest
      simp only [memberText, List.append_assoc, List.cons_append]
      rw [skip_key key before gap _ _ quoted blankBefore blankGap,
        ih _ _ (ended_gap behind _ blank (ended_cons ',' _ (by simp))), skip_comma .object brackets behind next _ blank blankNext]
      exact ihOthers brackets rest

theorem skip_value (gap text rest : List Char) (blank : Blank gap) (formed : Formed .value text) (ended : Ended rest) :
    skipValue (gap ++ (text ++ rest)) = .ok rest := by
  rw [skipValue, skip_tokens_gap _ _ gap _ (by simp) blank, formed_skipped .value text formed [] rest ended, skipTokens,
    if_pos ⟨rfl, rfl⟩]

end Frontend.Json
