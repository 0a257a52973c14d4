import Restate.Lib.StrSplit
import Restate.Replication.ReplicationProperty
import Restate.Storage.KeyCodec

/-! Rule patterns of the hierarchical limiter, from limiter/src/rule.rs: their levels, their rank
against a scope and a limit key, `Display` and `parse_rule_pattern`. With them the restricted values
of util/string/src/restricted_value.rs, which every exact component is, and the limit keys of
types/src/limit_key.rs. Strings are `String`s, read a character at a time where the source splits
or trims them; `str::trim` drops Unicode `White_Space`. -/

namespace Restate

/-- `RestrictedValueError`, as `validate` raises it (it never raises `Utf8Error`). -/
inductive RestrictedValueError
  | empty
  | invalid
  | tooLong (len max : Nat)
  deriving DecidableEq, Repr

def restrictedMaxLen : Nat := 36

/-- The byte table of `validate`: ASCII alphanumerics, `_`, `.` and `-`. -/
def isRestrictedByte (byte : UInt8) : Bool :=
  let code := byte.toNat
  (48 ≤ code && code ≤ 57) || (65 ≤ code && code ≤ 90) || (97 ≤ code && code ≤ 122) ||
    code == 95 || code == 46 || code == 45

/-- `validate`, on the UTF-8 bytes of the value. -/
def validate (value : String) : Except RestrictedValueError Unit :=
  if value.isEmpty then .error .empty
  else if restrictedMaxLen < (utf8 value).length then .error (.tooLong (utf8 value).length restrictedMaxLen)
  else if !(utf8 value).all isRestrictedByte then .error .invalid
  else .ok ()

/-- `RestrictedValue`: a string that passed `validate`. -/
structure RestrictedValue where
  value : String
  valid : validate value = .ok ()

instance : DecidableEq RestrictedValue := fun first second =>
  if same : first.value = second.value then isTrue (by cases first; cases second; cases same; rfl)
  else isFalse fun equal => same (congrArg RestrictedValue.value equal)

def RestrictedValue.fromStr (value : String) : Except RestrictedValueError RestrictedValue :=
  match valid : validate value with
  | .ok () => .ok ⟨value, valid⟩
  | .error error => .error error

/-- `Level`, with its `#[repr(u8)]` discriminant. -/
inductive Level
  | scope
  | level1
  | level2
  deriving DecidableEq, Repr

def Level.toNat : Level → Nat
  | .scope => 1
  | .level1 => 2
  | .level2 => 3

def Level.count : Nat := 3

inductive LimitKey
  | none
  | l1 (level1 : RestrictedValue)
  | l2 (level1 level2 : RestrictedValue)
  deriving DecidableEq

def LimitKey.level1 : LimitKey → Option RestrictedValue
  | .none => .none
  | .l1 level1 | .l2 level1 _ => some level1

def LimitKey.level2 : LimitKey → Option RestrictedValue
  | .none | .l1 _ => .none
  | .l2 _ level2 => some level2

/-- A component of a rule pattern: an exact value, or `*`. -/
inductive Pattern
  | exact (value : RestrictedValue)
  | wildcard
  deriving DecidableEq

/-- `Pattern::rank`: the level's bit when the exact value is the input, none when it is not, and
zero for a wildcard. -/
def Pattern.rank (pattern : Pattern) (input : String) (level : Level) : Option UInt8 :=
  let msb := Level.count - level.toNat
  match pattern with
  | .exact value => if value.value = input then some (1 <<< msb.toUInt8) else none
  | .wildcard => some 0

inductive RulePattern
  | scope (pattern : Pattern)
  | l1 (scope l1 : Pattern)
  | l2 (scope l1 l2 : Pattern)
  deriving DecidableEq

def RulePattern.level : RulePattern → Level
  | .scope _ => .scope
  | .l1 .. => .level1
  | .l2 .. => .level2

/-- `RulePattern::rank`: the bits of the exact components, none unless every component matches
and the limit key is deep enough for the pattern. -/
def RulePattern.rank (pattern : RulePattern) (scope : String) (inputLimitKey : LimitKey) : Option UInt8 :=
  match pattern with
  | .scope pat => pat.rank scope .scope
  | .l1 scopePat l1Pat => do
    let result ← scopePat.rank scope .scope
    let level1 ← inputLimitKey.level1
    let rank1 ← l1Pat.rank level1.value .level1
    pure (result ||| rank1)
  | .l2 scopePat l1Pat l2Pat => do
    let result ← scopePat.rank scope .scope
    let level1 ← inputLimitKey.level1
    let rank1 ← l1Pat.rank level1.value .level1
    let level2 ← inputLimitKey.level2
    let rank2 ← l2Pat.rank level2.value .level2
    pure (result ||| rank1 ||| rank2)

def Pattern.display : Pattern → String
  | .exact value => value.value
  | .wildcard => "*"

def RulePattern.display : RulePattern → String
  | .scope pattern => pattern.display
  | .l1 scopePat l1Pat => scopePat.display ++ "/" ++ l1Pat.display
  | .l2 scopePat l1Pat l2Pat => scopePat.display ++ "/" ++ l1Pat.display ++ "/" ++ l2Pat.display

inductive ParseError
  | emptyPattern
  | invalidComponent (error : RestrictedValueError)
  | tooManyComponents
  deriving DecidableEq, Repr

/-- `parse_pattern_component`, on the characters of a piece of the pattern. -/
def parsePatternComponent (part : List Char) : Except ParseError Pattern :=
  let trimmed := part.trimBy ReplicationProperty.isWhiteSpace
  if trimmed = ['*'] then .ok .wildcard
  else
    match RestrictedValue.fromStr (String.ofList trimmed) with
    | .ok value => .ok (.exact value)
    | .error error => .error (.invalidComponent error)

/-- The loop of `parse_rule_pattern` over the pieces, from the index of the next one: a fourth
piece is refused before it is parsed. -/
def parseComponents : Nat → List (List Char) → Except ParseError (List Pattern)
  | _, [] => .ok []
  | nextIdx, part :: rest =>
    if 3 ≤ nextIdx then .error .tooManyComponents
    else do
      let pattern ← parsePatternComponent part
      let patterns ← parseComponents (nextIdx + 1) rest
      pure (pattern :: patterns)

def parseRulePattern (input : String) : Except ParseError RulePattern :=
  let trimmed := input.toList.trimBy ReplicationProperty.isWhiteSpace
  if trimmed.isEmpty then .error .emptyPattern
  else do
    let parts ← parseComponents 0 (trimmed.splitTerminator '/')
    match parts with
    | [] => .error .emptyPattern
    | [scopePat] => pure (.scope scopePat)
    | [scopePat, l1Pat] => pure (.l1 scopePat l1Pat)
    | [scopePat, l1Pat, l2Pat] => pure (.l2 scopePat l1Pat l2Pat)
    | _ => .error .tooManyComponents

example : parseRulePattern "/" = .error (.invalidComponent .empty) := by decide

example : parseRulePattern "s*" = .error (.invalidComponent .invalid) := by decide

example : parseRulePattern "a/b/c/d" = .error .tooManyComponents := by decide

end Restate
