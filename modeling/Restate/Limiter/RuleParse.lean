import Restate.Limiter.Rule

/-! `parse_rule_pattern` reads every rule pattern back from its `Display`. The characters of a
restricted value are the ASCII ones of its byte table, as `validate` reads its UTF-8 bytes, so a
component holds no `/`, is not `*` and has no white space to trim; the display is its components
joined by `/`, which `split_terminator` takes apart again. -/

namespace Restate

theorem utf8_eq_flatMap (value : String) : utf8 value = value.toList.flatMap String.utf8EncodeChar := by
  conv_lhs => rw [← String.ofList_toList (s := value)]
  rw [utf8, String.toUTF8, String.toByteArray_ofList, List.utf8Encode, List.data_toByteArray, List.toList_toArray]

theorem restricted_of_bytes {c : Char} (bytes : ∀ byte ∈ String.utf8EncodeChar c, isRestrictedByte byte = true) :
    c.toNat < 128 ∧ isRestrictedByte (UInt8.ofNat c.toNat) = true := by
  by_cases small : c.toNat ≤ 127
  · have single : String.utf8EncodeChar c = [UInt8.ofNat c.toNat] := by
      unfold String.utf8EncodeChar
      simp [small]
    rw [single] at bytes
    exact ⟨by omega, bytes _ List.mem_cons_self⟩
  · -- the first byte of a longer encoding has its top bit set, which no byte of the table has
    exfalso
    have high : ∃ byte ∈ String.utf8EncodeChar c, 128 ≤ byte.toNat := by
      unfold String.utf8EncodeChar
      simp only [Char.toNat_val, small, if_false]
      split_ifs <;> simp <;> omega
    obtain ⟨byte, member, above⟩ := high
    have restricted := bytes byte member
    simp [isRestrictedByte] at restricted
    omega

theorem restricted_char_plain {c : Char} (restricted : c.toNat < 128 ∧ isRestrictedByte (UInt8.ofNat c.toNat) = true) :
    c ≠ '/' ∧ c ≠ '*' ∧ ReplicationProperty.isWhiteSpace c = false := by
  obtain ⟨ascii, byte⟩ := restricted
  have code : (UInt8.ofNat c.toNat).toNat = c.toNat := by
    rw [UInt8.toNat_ofNat']
    omega
  simp only [isRestrictedByte, code] at byte
  refine ⟨?_, ?_, ?_⟩
  · rintro rfl
    simp at byte
  · rintro rfl
    simp at byte
  · simp only [ReplicationProperty.isWhiteSpace]
    simp only [Bool.or_eq_true, Bool.and_eq_true, decide_eq_true_eq, beq_iff_eq] at byte
    simp only [Bool.or_eq_false_iff, Bool.and_eq_false_iff, decide_eq_false_iff_not, beq_eq_false_iff_ne]
    omega

namespace RestrictedValue

theorem plain_chars (value : RestrictedValue) :
    value.value.toList ≠ [] ∧ ∀ c ∈ value.value.toList, c ≠ '/' ∧ c ≠ '*' ∧ ReplicationProperty.isWhiteSpace c = false := by
  have valid := value.valid
  unfold validate at valid
  split_ifs at valid with empty long bad
  refine ⟨fun noChars => empty (String.isEmpty_iff.mpr (String.toList_eq_nil_iff.mp noChars)), fun c member => ?_⟩
  have allBytes : (utf8 value.value).all isRestrictedByte = true := by simpa using bad
  rw [utf8_eq_flatMap, List.all_eq_true] at allBytes
  exact restricted_char_plain (restricted_of_bytes fun byte encoded =>
    allBytes byte (List.mem_flatMap.mpr ⟨c, member, encoded⟩))

theorem fromStr_value (value : RestrictedValue) : fromStr value.value = .ok value := by
  unfold fromStr
  split
  · rfl
  · next error invalid => exact absurd (invalid.symm.trans value.valid) (by simp)

end RestrictedValue

namespace Pattern

theorem plain_chars (pattern : Pattern) :
    pattern.display.toList ≠ [] ∧ ∀ c ∈ pattern.display.toList, c ≠ '/' ∧ ReplicationProperty.isWhiteSpace c = false := by
  cases pattern with
  | exact value =>
    obtain ⟨nonEmpty, plain⟩ := value.plain_chars
    exact ⟨nonEmpty, fun c member => ⟨(plain c member).1, (plain c member).2.2⟩⟩
  | wildcard => simp [display, ReplicationProperty.isWhiteSpace]

theorem parse_display (pattern : Pattern) : parsePatternComponent pattern.display.toList = .ok pattern := by
  obtain ⟨nonEmpty, plain⟩ := pattern.plain_chars
  have trimmed : pattern.display.toList.trimBy ReplicationProperty.isWhiteSpace = pattern.display.toList :=
    List.trimBy_eq_self (fun first member => (plain first (List.mem_of_mem_head? member)).2)
      (fun last member => (plain last (List.mem_of_mem_getLast? member)).2)
  unfold parsePatternComponent
  rw [trimmed]
  cases pattern with
  | exact value =>
    have notWildcard : value.value.toList ≠ ['*'] := fun single =>
      (value.plain_chars.2 '*' (by rw [single]; exact List.mem_singleton_self _)).2.1 rfl
    simp only [display, String.ofList_toList, RestrictedValue.fromStr_value]
    rw [if_neg notWildcard]
  | wildcard => rfl

end Pattern

namespace RulePattern

/-- The components of a pattern, from the scope down. -/
def components : RulePattern → List Pattern
  | .scope pattern => [pattern]
  | .l1 scopePat l1Pat => [scopePat, l1Pat]
  | .l2 scopePat l1Pat l2Pat => [scopePat, l1Pat, l2Pat]

theorem display_toList (pattern : RulePattern) :
    pattern.display.toList = ['/'].intercalate (pattern.components.map fun component => component.display.toList) := by
  cases pattern <;> simp [display, components, String.toList_append, List.intercalate]

theorem plain_display (pattern : RulePattern) : ∀ c ∈ pattern.display.toList, ReplicationProperty.isWhiteSpace c = false := by
  intro c member
  rw [display_toList] at member
  rcases List.mem_intercalate_singleton member with rfl | ⟨_, inParts, inPart⟩
  · rfl
  · obtain ⟨component, -, rfl⟩ := List.mem_map.mp inParts
    exact (component.plain_chars.2 c inPart).2

theorem parseComponents_display (patterns : List Pattern) (nextIdx : Nat) (fits : nextIdx + patterns.length ≤ 3) :
    parseComponents nextIdx (patterns.map fun component => component.display.toList) = .ok patterns := by
  induction patterns generalizing nextIdx with
  | nil => rfl
  | cons first rest ih =>
    rw [List.length_cons] at fits
    rw [List.map_cons, parseComponents, if_neg (by omega), first.parse_display, ih (nextIdx + 1) (by omega)]
    rfl

theorem parse_display (pattern : RulePattern) : parseRulePattern pattern.display = .ok pattern := by
  have plain := pattern.plain_display
  have trimmed : pattern.display.toList.trimBy ReplicationProperty.isWhiteSpace = pattern.display.toList :=
    List.trimBy_eq_self (fun first member => plain first (List.mem_of_mem_head? member))
      (fun last member => plain last (List.mem_of_mem_getLast? member))
  have pieces : pattern.display.toList.splitTerminator '/' = pattern.components.map fun component => component.display.toList := by
    rw [display_toList]
    refine List.splitTerminator_intercalate '/' ?_ ?_ ?_
    · simp only [List.mem_map]
      rintro _ ⟨component, -, rfl⟩ separator
      exact (component.plain_chars.2 '/' separator).1 rfl
    · intro last member
      obtain ⟨component, -, rfl⟩ := List.mem_map.mp (List.mem_of_mem_getLast? member)
      exact component.plain_chars.1
    · cases pattern <;> simp [components]
  have nonEmpty : pattern.display.toList.isEmpty = false := by
    rw [display_toList]
    cases pattern <;> simp [components, List.intercalate, (Pattern.plain_chars _).1]
  have fits : 0 + pattern.components.length ≤ 3 := by
    cases pattern <;> simp [components]
  unfold parseRulePattern
  simp only [trimmed, nonEmpty, pieces, parseComponents_display _ 0 fits]
  cases pattern <;> rfl

end RulePattern

end Restate
