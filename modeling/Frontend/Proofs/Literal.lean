import Frontend.Literal
import Frontend.Proofs.Decimal.Layout

set_option autoImplicit false

namespace Frontend

namespace Text

-- A text that stays in one part.
def Solid (text : List Char) : Prop := text ≠ [] ∧ ' ' ∉ text

theorem solid_before (text behind : List Char) (solid : Solid text) (clean : ' ' ∉ behind) : Solid (text ++ behind) := by
  refine ⟨List.append_ne_nil_of_left_ne_nil solid.1 behind, ?_⟩
  rw [List.mem_append, not_or]
  exact ⟨solid.2, clean⟩

theorem solid_behind (front text : List Char) (clean : ' ' ∉ front) (solid : Solid text) : Solid (front ++ text) := by
  refine ⟨List.append_ne_nil_of_right_ne_nil front solid.1, ?_⟩
  rw [List.mem_append, not_or]
  exact ⟨clean, solid.2⟩

theorem digits_solid (text : List Char) (proper : Decimal.DigitsText text) : Solid text :=
  ⟨proper.1, Decimal.digits_lack ' ' (by decide) text proper.2⟩

end Text

namespace Decimal

open Text

-- Digits and nothing else, one at least.
def readNatural? (text : List Char) : Option Nat :=
  if text ≠ [] ∧ text.all isDigit = true then some (value text) else none

-- A sign may stand in front of the digits.
def readSigned? (text : List Char) : Option Int :=
  let signed := readSign text
  (readNatural? signed.2).map fun n => if signed.1 then -n else n

theorem read_natural (n : Nat) : readNatural? (digits n) = some n := by
  rw [readNatural?, if_pos ⟨digits_nonempty n, List.all_eq_true.mpr (digits_digit n)⟩, value_digits]

theorem signed_nonnegative (n : Nat) : (signedText (.ofNat n)).toList = digits n :=
  String.toList_ofList

theorem signed_negative (n : Nat) : (signedText (.negSucc n)).toList = '-' :: digits (n + 1) := by
  have sign : "-".toList = ['-'] := rfl
  rw [signedText, String.toList_append, sign, text, String.toList_ofList, List.singleton_append]

theorem read_signed (n : Int) : readSigned? (signedText n).toList = some n := by
  cases n with
  | ofNat n =>
      have sign := read_sign (digits n) [] (digits_whole n).1
      rw [List.append_nil] at sign
      rw [signed_nonnegative, readSigned?, sign, read_natural]
      rfl
  | negSucc n =>
      have sign : readSign ('-' :: digits (n + 1)) = (true, digits (n + 1)) := rfl
      rw [signed_negative, readSigned?, sign, read_natural]
      rfl

theorem signed_solid (n : Int) : Solid (signedText n).toList := by
  cases n with
  | ofNat n =>
      rw [signed_nonnegative]
      exact digits_solid _ (digits_whole n).1
  | negSucc n =>
      rw [signed_negative]
      exact solid_behind ['-'] _ (by decide) (digits_solid _ (digits_whole (n + 1)).1)

theorem trimmed_solid (places units : Nat) : Solid (trimFraction (pointed places units)) := by
  obtain ⟨whole, fraction, trimmed, proper, tidy, _⟩ := trimmed_pointed places units
  rw [trimmed]
  refine solid_before _ _ (digits_solid whole proper.1) ?_
  cases fraction with
  | none => exact List.not_mem_nil
  | some digits => exact (solid_behind ['.'] digits (by decide) (digits_solid digits (tidy digits rfl).1)).2

end Decimal

namespace Double

open Text

theorem exponent_clean (exponent : Int) : ' ' ∉ exponentText exponent := by
  have digits := digits_solid _ (Decimal.padded_digits 2 exponent.natAbs)
  rw [exponentText]
  split
  · exact (solid_behind ['e', '-'] _ (by decide) digits).2
  · exact (solid_behind ['e', '+'] _ (by decide) digits).2

theorem fraction_solid (numerator denominator : Nat) : Solid (fractionText numerator denominator) := by
  simp only [fractionText]
  split
  · exact solid_before _ _ (Decimal.trimmed_solid _ _) (exponent_clean _)
  · exact Decimal.trimmed_solid _ _

-- No bits are left out: each kind of number has a text, and none of them has a space.
theorem text_solid (d : Double) : Solid d.text.toList := by
  have signed : ∀ rest : String, Solid rest.toList → Solid ((if d.isNegative then "-" else "") ++ rest).toList := by
    intro rest solid
    rw [String.toList_append]
    refine solid_behind _ _ ?_ solid
    split <;> decide
  rw [text]
  by_cases number : d.isNaN = true
  · rw [if_pos number]
    exact ⟨by decide, by decide⟩
  rw [if_neg number]
  by_cases infinite : d.isInfinite = true
  · rw [if_pos infinite]
    exact signed "inf" ⟨by decide, by decide⟩
  rw [if_neg infinite]
  by_cases zero : d.isZero = true
  · rw [if_pos zero]
    exact signed "0" ⟨by decide, by decide⟩
  · rw [if_neg zero]
    refine signed _ ?_
    rw [String.toList_ofList]
    exact fraction_solid _ _

end Double

namespace Literal

open Text

-- The parts between single spaces. The empty text has none.
def parts (text : String) : List (List Char) :=
  if text = "" then [] else text.toList.splitOn ' '

def readBool? : List Char → Option Bool
  | ['1'] => some true
  | ['0'] => some false
  | _ => none

theorem read_bool (value : Bool) : readBool? (boolText value).toList = some value := by
  cases value <;> decide

theorem bool_solid (value : Bool) : Solid (boolText value).toList := by
  cases value <;> exact ⟨by decide, by decide⟩

section Arrays

variable {Element : Type} (shown : Element → String) (solid : ∀ element, Solid (shown element).toList)

include solid

theorem array_split (elements : List Element) (some : elements ≠ []) :
    (joined (elements.map shown)).toList.splitOn ' ' = elements.map fun element => (shown element).toList := by
  rw [joined, String.toList_intercalate, List.map_map]
  refine List.splitOn_intercalate ' ' ?_ (by simpa using some)
  intro part member
  obtain ⟨element, _, rfl⟩ := List.mem_map.mp member
  exact (solid element).2

-- One element without a text would look like no element at all.
theorem array_empty (elements : List Element) : joined (elements.map shown) = "" ↔ elements = [] := by
  constructor
  · intro empty
    by_contra some
    have split := array_split shown solid elements some
    rw [empty, String.toList_empty, List.splitOn_nil] at split
    have member : [] ∈ elements.map fun element => (shown element).toList := split ▸ List.mem_singleton_self []
    obtain ⟨element, _, none⟩ := List.mem_map.mp member
    exact (solid element).1 none
  · rintro rfl
    rfl

theorem array_parts (elements : List Element) :
    parts (joined (elements.map shown)) = elements.map fun element => (shown element).toList := by
  rw [parts]
  by_cases none : elements = []
  · rw [if_pos ((array_empty shown solid elements).mpr none), none, List.map_nil]
  · rw [if_neg (mt (array_empty shown solid elements).mp none), array_split shown solid elements none]

theorem array_reads (read : List Char → Option Element) (back : ∀ element, read (shown element).toList = some element)
    (elements : List Element) : (parts (joined (elements.map shown))).mapM read = some elements := by
  have each : (read ∘ fun element => (shown element).toList) = fun element => pure (id element) := funext back
  rw [array_parts shown solid, List.mapM_map, each, List.mapM_pure, List.map_id]
  rfl

end Arrays

theorem array_text_reads_back :
    (∀ values : List Int, (text (.intArray values) = "" ↔ values = []) ∧
      (parts (text (.intArray values))).mapM Decimal.readSigned? = some values) ∧
    (∀ values : List Bool, (text (.boolArray values) = "" ↔ values = []) ∧
      (parts (text (.boolArray values))).mapM readBool? = some values) ∧
    (∀ values : List Double, (text (.doubleArray values) = "" ↔ values = []) ∧
      parts (text (.doubleArray values)) = values.map (fun value => value.text.toList) ∧
      (parts (text (.doubleArray values))).length = values.length) ∧
    ∀ value : Double, value.text.toList ≠ [] ∧ ' ' ∉ value.text.toList := by
  refine ⟨fun values => ⟨?_, ?_⟩, fun values => ⟨?_, ?_⟩, fun values => ?_, Double.text_solid⟩
  · exact array_empty Decimal.signedText Decimal.signed_solid values
  · exact array_reads Decimal.signedText Decimal.signed_solid Decimal.readSigned? Decimal.read_signed values
  · exact array_empty boolText bool_solid values
  · exact array_reads boolText bool_solid readBool? read_bool values
  · have apart := array_parts Double.text Double.text_solid values
    refine ⟨array_empty Double.text Double.text_solid values, apart, ?_⟩
    change (parts (joined (values.map Double.text))).length = values.length
    rw [apart, List.length_map]

end Literal

end Frontend
