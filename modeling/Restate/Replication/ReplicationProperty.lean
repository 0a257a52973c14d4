import Restate.Replication.Types

/-! `ReplicationProperty` from `restate_types::replication::replication_property`: its
constructors, `set_scope` with its two conflict checks, `Display` and `FromStr`. The map from
scopes to factors is the lookup function of `ReplicationProperty`; a `BTreeMap` iterates in the
order of `LocationScope.ascending`. A call that panics returns `none`. Errors are their messages,
as `anyhow` displays them.

`FromStr` matches `REPLICATION_PROPERTY_PATTERN` and then reads the scopes back with
`REPLICATION_PROPERTY_EXTRACTOR`. The regex library is a parameter, `ScopeCaptures`: what the proofs
take from it is that a braced list of `scope: digits` entries separated by `, ` is in the pattern's
language, and that the extractor finds its entries in order. One library is a scan that follows the
pattern a character at a time and collects the groups, with `\s` as Unicode `White_Space` and the
scope names matched ASCII case-insensitively; the examples run on it. -/

namespace Restate

structure NonZeroU8 where
  get : Nat
  pos : 0 < get
  lt : get < 256
  deriving DecidableEq

namespace NonZeroU8

/-- `str::parse::<NonZeroU8>`: `u8::from_str_radix(s, 10)`, an optional `+` and one or more ASCII
digits, then `NonZeroU8::new`. The checked multiply-add of `from_str_radix` overflows exactly
when the whole value is above 255, as the value only grows with each digit. -/
def fromStr (chars : List Char) : Option NonZeroU8 :=
  let digits := match chars with
    | '+' :: rest => rest
    | _ => chars
  let value := Nat.ofDigitChars 10 digits 0
  if valid : digits ≠ [] ∧ digits.all Char.isDigit = true ∧ 0 < value ∧ value < 256 then
    some ⟨value, valid.2.2.1, valid.2.2.2⟩
  else none

end NonZeroU8

namespace LocationScope

/-- `format!("{scope:?}").to_lowercase()`. -/
def debugName : LocationScope → String
  | node => "node"
  | zone => "zone"
  | region => "region"
  | root => "root"

/-- `Display` from `strum`: the variant's name. -/
def displayName : LocationScope → String
  | node => "Node"
  | zone => "Zone"
  | region => "Region"
  | root => "Root"

end LocationScope

namespace ReplicationProperty

def new (factor : NonZeroU8) : ReplicationProperty :=
  ⟨fun scope => if scope = .node then some factor.get else none⟩

def withScope (scope : LocationScope) (factor : NonZeroU8) : Option ReplicationProperty :=
  -- `assert!(scope < LocationScope::Root)`
  if scope.toU8 < LocationScope.root.toU8 then
    some ⟨fun scope' => if scope' = scope then some factor.get else none⟩
  else none

/-- The map's entries in key order. -/
def entries (property : ReplicationProperty) : List (LocationScope × Nat) :=
  LocationScope.ascending.filterMap fun scope => (property.factors scope).map (scope, ·)

/-- The first entry `set_scope` finds in conflict: a narrower scope with fewer copies or a wider
scope with more. -/
def conflict? (property : ReplicationProperty) (scope : LocationScope) (factor : Nat) :
    Option (LocationScope × Nat) :=
  property.entries.find? fun entry =>
    (entry.1.toU8 < scope.toU8 && entry.2 < factor) || (scope.toU8 < entry.1.toU8 && factor < entry.2)

def conflictMessage (scope : LocationScope) (factor : Nat) (other : LocationScope)
    (otherFactor : Nat) : String :=
  "Cannot set \x7b\"" ++ scope.displayName ++ "\": " ++ Nat.repr factor ++
    "\x7d as it conflicts with \x7b\"" ++ other.displayName ++ "\": " ++ Nat.repr otherFactor ++ "\x7d"

def setScope (property : ReplicationProperty) (scope : LocationScope) (factor : NonZeroU8) :
    Option (Except String ReplicationProperty) :=
  -- `assert!(scope < LocationScope::Root)`
  if scope.toU8 < LocationScope.root.toU8 then
    match property.conflict? scope factor.get with
    | some (other, otherFactor) => some (.error (conflictMessage scope factor.get other otherFactor))
    | none => some (.ok ⟨fun scope' => if scope' = scope then some factor.get else property.factors scope'⟩)
  else none

def displayEntry (entry : LocationScope × Nat) : String :=
  entry.1.debugName ++ ": " ++ Nat.repr entry.2

def display (property : ReplicationProperty) : String :=
  "\x7b" ++
    (match property.entries with
      | [] => ""
      | first :: rest => displayEntry first ++ String.join (rest.map fun entry => ", " ++ displayEntry entry)) ++
    "\x7d"

/-- Unicode `White_Space`, the class `\s` stands for. -/
def isWhiteSpace (c : Char) : Bool :=
  let code := c.toNat
  (0x9 ≤ code && code ≤ 0xD) || code == 0x20 || code == 0x85 || code == 0xA0 || code == 0x1680 ||
    (0x2000 ≤ code && code ≤ 0x200A) || code == 0x2028 || code == 0x2029 || code == 0x202F ||
    code == 0x205F || code == 0x3000

/-- A scope name of the pattern, lower-cased. -/
def scopeNamed : List Char → Option LocationScope
  | ['n', 'o', 'd', 'e'] => some .node
  | ['z', 'o', 'n', 'e'] => some .zone
  | ['r', 'e', 'g', 'i', 'o', 'n'] => some .region
  | _ => none

def isScopePrefix (read : List Char) : Bool :=
  read.isPrefixOf ['n', 'o', 'd', 'e'] || read.isPrefixOf ['z', 'o', 'n', 'e'] ||
    read.isPrefixOf ['r', 'e', 'g', 'i', 'o', 'n']

/-- Where the scan of `^(?i)\{\s*scope\s*:\s*\d+(?:\s*,\s*scope\s*:\s*\d+)*\s*}$` stands. -/
inductive Scan where
  | start
  | beforeScope
  | inScope (read : List Char)
  | afterScope (scope : LocationScope)
  | beforeFactor (scope : LocationScope)
  | inFactor (scope : LocationScope) (digits : List Char)
  | afterFactor
  | closed
  deriving DecidableEq

structure Scanner where
  scan : Scan
  groups : List (LocationScope × List Char)

/-- One character of the pattern; `none` when the string cannot match. -/
def step (scanner : Scanner) (c : Char) : Option Scanner :=
  let groups := scanner.groups
  -- the letters of a scope name, while they can still spell one
  let extend := fun read : List Char =>
    if isScopePrefix (read ++ [c.toLower]) then some ⟨.inScope (read ++ [c.toLower]), groups⟩
    else none
  match scanner.scan with
  | .start => if c = '{' then some ⟨.beforeScope, groups⟩ else none
  | .beforeScope => if isWhiteSpace c then some scanner else extend []
  | .inScope read =>
    match scopeNamed read with
    | some scope =>
      if isWhiteSpace c then some ⟨.afterScope scope, groups⟩
      else if c = ':' then some ⟨.beforeFactor scope, groups⟩
      else extend read
    | none => extend read
  | .afterScope scope =>
    if isWhiteSpace c then some scanner
    else if c = ':' then some ⟨.beforeFactor scope, groups⟩
    else none
  | .beforeFactor scope =>
    if isWhiteSpace c then some scanner
    else if c.isDigit then some ⟨.inFactor scope [c], groups⟩
    else none
  | .inFactor scope digits =>
    -- the extractor's group ends with the last digit
    if c.isDigit then some ⟨.inFactor scope (digits ++ [c]), groups⟩
    else if isWhiteSpace c then some ⟨.afterFactor, groups ++ [(scope, digits)]⟩
    else if c = ',' then some ⟨.beforeScope, groups ++ [(scope, digits)]⟩
    else if c = '}' then some ⟨.closed, groups ++ [(scope, digits)]⟩
    else none
  | .afterFactor =>
    if isWhiteSpace c then some scanner
    else if c = ',' then some ⟨.beforeScope, groups⟩
    else if c = '}' then some ⟨.closed, groups⟩
    else none
  | .closed => none

/-- The groups `REPLICATION_PROPERTY_EXTRACTOR` finds, when the whole string matches
`REPLICATION_PROPERTY_PATTERN`. -/
def scopeGroups (chars : List Char) : Option (List (LocationScope × List Char)) :=
  match chars.foldlM step ⟨.start, []⟩ with
  | some ⟨.closed, groups⟩ => some groups
  | _ => none

/-- The characters of one printed entry. -/
def entryChars (entry : LocationScope × Nat) : List Char :=
  entry.1.debugName.toList ++ [':', ' '] ++ Nat.toDigits 10 entry.2

/-- The characters `display` prints between the braces. -/
def entriesChars : List (LocationScope × Nat) → List Char
  | [] => []
  | first :: rest => entryChars first ++ rest.flatMap fun entry => ',' :: ' ' :: entryChars entry

/-- The group the extractor reads for a printed entry. -/
def printedGroup (entry : LocationScope × Nat) : LocationScope × List Char :=
  (entry.1, Nat.toDigits 10 entry.2)

/-- The two regexes of `from_str` as a regex library runs them: the `(scope, factor)` groups that
`REPLICATION_PROPERTY_EXTRACTOR` finds in the `scopes` group of `REPLICATION_PROPERTY_PATTERN`'s
match, and none where the pattern does not match the whole string. -/
class ScopeCaptures where
  groups : List Char → Option (List (LocationScope × List Char))
  /-- A braced list of entries `scope: factor`, separated by `, `, is matched, and its entries are
  the groups. -/
  groups_printed : ∀ (first : LocationScope × Nat) (rest : List (LocationScope × Nat)),
    (∀ entry ∈ first :: rest, entry.1 ≠ .root) →
      groups ('{' :: entriesChars (first :: rest) ++ ['}']) = some ((first :: rest).map printedGroup)

/-- The loop of `from_str` over the groups, with the property built so far. -/
def fromGroups :
    List (LocationScope × List Char) → Option ReplicationProperty →
      Option (Except String ReplicationProperty)
  | [], none => some (.error "No replication property scopes defined")
  | [], some property => some (.ok property)
  | (scope, digits) :: rest, built =>
    match NonZeroU8.fromStr digits with
    | none => some (.error ("Replication factor for scope " ++ scope.displayName ++ " cannot be zero"))
    | some factor =>
      match built with
      | none =>
        match withScope scope factor with
        | some property => fromGroups rest (some property)
        | none => none
      | some property =>
        match property.setScope scope factor with
        | some (.ok property) => fromGroups rest (some property)
        | some (.error message) => some (.error message)
        | none => none

def fromStr [ScopeCaptures] (s : String) : Option (Except String ReplicationProperty) :=
  match NonZeroU8.fromStr s.toList with
  | some factor => some (.ok (new factor))
  | none =>
    match ScopeCaptures.groups s.toList with
    | some groups => fromGroups groups none
    | none => some (.error "Invalid replication property syntax")

/-! The printed form read back. A factor is printed with `Nat.toDigits`; the scan reads each entry
of `display` in turn and collects it as a group. -/

theorem NonZeroU8.fromStr_unsigned {digits : List Char} (unsigned : ∀ rest, digits ≠ '+' :: rest) :
    NonZeroU8.fromStr digits =
      if valid : digits ≠ [] ∧ digits.all Char.isDigit = true ∧ 0 < Nat.ofDigitChars 10 digits 0 ∧
          Nat.ofDigitChars 10 digits 0 < 256 then some ⟨_, valid.2.2.1, valid.2.2.2⟩ else none := by
  unfold NonZeroU8.fromStr
  dsimp only
  split
  · rename_i rest
    exact absurd rfl (unsigned rest)
  · rfl

theorem NonZeroU8.fromStr_toDigits {factor : Nat} (pos : 0 < factor) (lt : factor < 256) :
    NonZeroU8.fromStr (Nat.toDigits 10 factor) = some ⟨factor, pos, lt⟩ := by
  have digit : ∀ c ∈ Nat.toDigits 10 factor, c.isDigit = true :=
    fun c member => Nat.isDigit_of_mem_toDigits (by decide) (by decide) member
  have unsigned : ∀ rest, Nat.toDigits 10 factor ≠ '+' :: rest := by
    intro rest printed
    exact absurd (digit '+' (printed ▸ List.mem_cons_self)) (by decide)
  have valid : Nat.toDigits 10 factor ≠ [] ∧ (Nat.toDigits 10 factor).all Char.isDigit = true ∧
      0 < Nat.ofDigitChars 10 (Nat.toDigits 10 factor) 0 ∧
      Nat.ofDigitChars 10 (Nat.toDigits 10 factor) 0 < 256 := by
    rw [Nat.ofDigitChars_ten_toDigits]
    exact ⟨Nat.toDigits_ne_nil, List.all_eq_true.mpr digit, pos, lt⟩
  rw [NonZeroU8.fromStr_unsigned unsigned, dif_pos valid]
  simp [Nat.ofDigitChars_ten_toDigits]

theorem NonZeroU8.fromStr_brace (rest : List Char) : NonZeroU8.fromStr ('{' :: rest) = none := by
  rw [NonZeroU8.fromStr_unsigned (fun _ same => by simp at same), dif_neg]
  rintro ⟨-, digits, -⟩
  simp at digits

theorem toNat_of_isDigit {c : Char} (digit : c.isDigit = true) : 48 ≤ c.toNat ∧ c.toNat ≤ 57 := by
  simp only [Char.isDigit, Bool.and_eq_true, decide_eq_true_eq] at digit
  exact ⟨digit.1, digit.2⟩

theorem isWhiteSpace_of_isDigit {c : Char} (digit : c.isDigit = true) : isWhiteSpace c = false := by
  have range := toNat_of_isDigit digit
  simp only [isWhiteSpace, Bool.or_eq_false_iff, Bool.and_eq_false_iff, decide_eq_false_iff_not,
    beq_eq_false_iff_ne]
  omega

theorem scan_digits (scope : LocationScope) (groups : List (LocationScope × List Char)) :
    ∀ (digits read rest : List Char), (∀ c ∈ digits, c.isDigit = true) →
      (digits ++ rest).foldlM step ⟨.inFactor scope read, groups⟩ =
        rest.foldlM step ⟨.inFactor scope (read ++ digits), groups⟩
  | [], read, rest, _ => by simp
  | c :: digits, read, rest, digit => by
    have isDigit := digit c List.mem_cons_self
    rw [List.cons_append, List.foldlM_cons]
    simp only [step, isDigit, if_true, Option.bind_eq_bind, Option.bind_some]
    rw [scan_digits scope groups digits (read ++ [c]) rest
      (fun c' member => digit c' (List.mem_cons_of_mem c member)), List.append_assoc,
      List.singleton_append]

theorem scan_entry (groups : List (LocationScope × List Char)) (entry : LocationScope × Nat)
    (named : entry.1 ≠ .root) (rest : List Char) :
    (entryChars entry ++ rest).foldlM step ⟨.beforeScope, groups⟩ =
      rest.foldlM step ⟨.inFactor entry.1 (Nat.toDigits 10 entry.2), groups⟩ := by
  obtain ⟨scope, factor⟩ := entry
  obtain ⟨first, digits, printed⟩ : ∃ first digits, Nat.toDigits 10 factor = first :: digits :=
    List.exists_cons_of_ne_nil Nat.toDigits_ne_nil
  have digit : ∀ c ∈ Nat.toDigits 10 factor, c.isDigit = true :=
    fun c member => Nat.isDigit_of_mem_toDigits (by decide) (by decide) member
  rw [printed] at digit
  have firstDigit := digit first List.mem_cons_self
  have named : (scope.debugName.toList ++ [':', ' ']).foldlM step ⟨.beforeScope, groups⟩ =
      some ⟨.beforeFactor scope, groups⟩ := by
    cases scope with
    | root => exact absurd rfl named
    | node | zone | region => rfl
  simp only [entryChars, printed]
  rw [List.append_assoc, List.foldlM_append, named]
  simp only [Option.bind_eq_bind, Option.bind_some, List.cons_append, List.foldlM_cons]
  simp only [step, isWhiteSpace_of_isDigit firstDigit, firstDigit, Bool.false_eq_true, if_false,
    if_true, Option.bind_some]
  rw [scan_digits scope groups digits [first] rest
    (fun c member => digit c (List.mem_cons_of_mem _ member)), List.singleton_append]

theorem toList_display (property : ReplicationProperty) :
    property.display.toList = '{' :: entriesChars property.entries ++ ['}'] := by
  unfold display
  cases property.entries with
  | nil => rfl
  | cons first rest =>
    simp [String.toList_append, String.toList_join, displayEntry, entryChars, entriesChars,
      Nat.toList_repr, List.flatMap_map]

theorem scan_separated (rest : List (LocationScope × Nat)) :
    ∀ (first : LocationScope × Nat) (groups : List (LocationScope × List Char)),
      (∀ entry ∈ rest, entry.1 ≠ .root) →
      ((rest.flatMap fun entry => ',' :: ' ' :: entryChars entry) ++ ['}']).foldlM step
          ⟨.inFactor first.1 (Nat.toDigits 10 first.2), groups⟩ =
        some ⟨.closed, groups ++ (first :: rest).map printedGroup⟩ := by
  induction rest with
  | nil => intro first groups _; rfl
  | cons entry rest ih =>
    intro first groups named
    have separator : [',', ' '].foldlM step ⟨.inFactor first.1 (Nat.toDigits 10 first.2), groups⟩ =
        some ⟨.beforeScope, groups ++ [printedGroup first]⟩ := rfl
    have split : (entry :: rest).flatMap (fun entry => ',' :: ' ' :: entryChars entry) ++ ['}'] =
        [',', ' '] ++ (entryChars entry ++
          ((rest.flatMap fun entry => ',' :: ' ' :: entryChars entry) ++ ['}'])) := by
      simp
    rw [split, List.foldlM_append, separator]
    simp only [Option.bind_eq_bind, Option.bind_some]
    rw [scan_entry _ entry (named entry List.mem_cons_self),
      ih entry _ (fun entry' member => named entry' (List.mem_cons_of_mem _ member))]
    simp

theorem scopeGroups_printed (first : LocationScope × Nat) (rest : List (LocationScope × Nat))
    (named : ∀ entry ∈ first :: rest, entry.1 ≠ .root) :
    scopeGroups ('{' :: entriesChars (first :: rest) ++ ['}']) = some ((first :: rest).map printedGroup) := by
  have opened : ['{'].foldlM step ⟨.start, []⟩ = some ⟨.beforeScope, []⟩ := rfl
  have chars : '{' :: entriesChars (first :: rest) ++ ['}'] =
      ['{'] ++ (entryChars first ++ ((rest.flatMap fun entry => ',' :: ' ' :: entryChars entry) ++ ['}'])) := by
    simp [entriesChars]
  unfold scopeGroups
  rw [chars, List.foldlM_append, opened]
  simp only [Option.bind_eq_bind, Option.bind_some]
  rw [scan_entry _ first (named first List.mem_cons_self),
    scan_separated rest first [] (fun entry member => named entry (List.mem_cons_of_mem _ member)),
    List.nil_append]

/-! What a replication property is for: a number of copies for each scope it names below the
root, between 1 and 255, and never more copies at a wider scope than at a narrower one. -/

def NonIncreasing (property : ReplicationProperty) : Prop :=
  ∀ scope scope' factor factor', scope.toU8 < scope'.toU8 → property.factors scope = some factor →
    property.factors scope' = some factor' → factor' ≤ factor

def IsLargestFactor (property : ReplicationProperty) (copies : Nat) : Prop :=
  (∃ scope, property.factors scope = some copies) ∧
    ∀ scope factor, property.factors scope = some factor → factor ≤ copies

structure WellFormed (property : ReplicationProperty) : Prop where
  nonIncreasing : property.NonIncreasing
  inRange : ∀ scope factor, property.factors scope = some factor → 0 < factor ∧ factor < 256
  noRoot : property.factors .root = none
  nonEmpty : ∃ scope factor, property.factors scope = some factor

/-- The properties `new`, `with_scope` and successful calls of `set_scope` build. -/
inductive Built : ReplicationProperty → Prop
  | new (factor : NonZeroU8) : Built (new factor)
  | withScope {property : ReplicationProperty} (scope : LocationScope) (factor : NonZeroU8) :
      withScope scope factor = some property → Built property
  | setScope {property property' : ReplicationProperty} (scope : LocationScope) (factor : NonZeroU8) :
      Built property → property.setScope scope factor = some (.ok property') → Built property'

theorem mem_entries {property : ReplicationProperty} {scope : LocationScope} {factor : Nat} :
    (scope, factor) ∈ property.entries ↔ property.factors scope = some factor := by
  simp [entries, LocationScope.mem_ascending]

theorem entries_pairwise (property : ReplicationProperty) :
    property.entries.Pairwise fun entry entry' => entry.1.toU8 < entry'.1.toU8 := by
  refine List.Pairwise.filterMap (R := fun scope scope' : LocationScope => scope.toU8 < scope'.toU8)
    _ ?_ (by decide)
  intro scope scope' lt entry found entry' found'
  obtain ⟨_, _, rfl⟩ := Option.map_eq_some_iff.mp found
  obtain ⟨_, _, rfl⟩ := Option.map_eq_some_iff.mp found'
  exact lt

theorem conflict?_eq_none_iff {property : ReplicationProperty} {scope : LocationScope}
    {factor : Nat} :
    property.conflict? scope factor = none ↔
      ∀ scope' factor', property.factors scope' = some factor' →
        ¬(scope'.toU8 < scope.toU8 ∧ factor' < factor) ∧ ¬(scope.toU8 < scope'.toU8 ∧ factor < factor') := by
  rw [conflict?, List.find?_eq_none]
  constructor
  · intro clear scope' factor' found
    have unmatched := clear (scope', factor') (mem_entries.mpr found)
    simp only [Bool.or_eq_true, Bool.and_eq_true, decide_eq_true_eq, not_or] at unmatched
    exact unmatched
  · rintro clear ⟨scope', factor'⟩ member
    simp only [Bool.or_eq_true, Bool.and_eq_true, decide_eq_true_eq, not_or]
    exact clear scope' factor' (mem_entries.mp member)

theorem setScope_ok {property property' : ReplicationProperty} {scope : LocationScope}
    {factor : NonZeroU8} :
    property.setScope scope factor = some (.ok property') ↔
      scope ≠ .root ∧ property.conflict? scope factor.get = none ∧
        property' = ⟨fun scope' => if scope' = scope then some factor.get else property.factors scope'⟩ := by
  have belowRoot : scope.toU8 < LocationScope.root.toU8 ↔ scope ≠ .root := by
    cases scope <;> decide
  unfold setScope
  rw [← belowRoot]
  by_cases below : scope.toU8 < LocationScope.root.toU8
  · rw [if_pos below]
    cases conflict : property.conflict? scope factor.get with
    | some entry => simp [below]
    | none => simp [below, eq_comm]
  · simp [below]

theorem new_wellFormed (factor : NonZeroU8) : (new factor).WellFormed where
  nonIncreasing := by
    intro scope scope' _ _ lt found found'
    simp only [new, Option.ite_none_right_eq_some] at found found'
    rw [found.1, found'.1] at lt
    exact absurd lt (by decide)
  inRange := by
    intro scope _ found
    simp only [new, Option.ite_none_right_eq_some, Option.some.injEq] at found
    rw [← found.2]
    exact ⟨factor.pos, factor.lt⟩
  noRoot := rfl
  nonEmpty := ⟨.node, factor.get, rfl⟩

theorem withScope_wellFormed {scope : LocationScope} {factor : NonZeroU8}
    {property : ReplicationProperty} (built : withScope scope factor = some property) :
    property.WellFormed := by
  unfold withScope at built
  split at built
  · rename_i below
    rw [Option.some.injEq] at built
    subst built
    refine ⟨?_, ?_, ?_, ⟨scope, factor.get, by simp⟩⟩
    · intro scope₁ scope₂ _ _ lt found₁ found₂
      simp only [Option.ite_none_right_eq_some] at found₁ found₂
      rw [found₁.1, found₂.1] at lt
      exact absurd lt (Nat.lt_irrefl _)
    · intro scope' _ found
      simp only [Option.ite_none_right_eq_some, Option.some.injEq] at found
      rw [← found.2]
      exact ⟨factor.pos, factor.lt⟩
    · have notRoot : LocationScope.root ≠ scope := fun same => by
        rw [← same] at below
        exact Nat.lt_irrefl _ below
      simp [notRoot]
  · cases built

theorem setScope_wellFormed {property property' : ReplicationProperty} {scope : LocationScope}
    {factor : NonZeroU8} (wellFormed : property.WellFormed)
    (set : property.setScope scope factor = some (.ok property')) : property'.WellFormed := by
  obtain ⟨notRoot, noConflict, rfl⟩ := setScope_ok.mp set
  have clear := conflict?_eq_none_iff.mp noConflict
  refine ⟨?_, ?_, ?_, ⟨scope, factor.get, by simp⟩⟩
  · intro scope₁ scope₂ factor₁ factor₂ lt found₁ found₂
    dsimp only at found₁ found₂
    -- the new factor is compared with the old ones by the checks; the old ones among themselves
    by_cases first : scope₁ = scope
    · have second : scope₂ ≠ scope := fun same => by rw [first, same] at lt; exact Nat.lt_irrefl _ lt
      rw [if_pos first, Option.some.injEq] at found₁
      rw [if_neg second] at found₂
      rw [first] at lt
      have := (clear scope₂ factor₂ found₂).2
      omega
    · rw [if_neg first] at found₁
      by_cases second : scope₂ = scope
      · rw [if_pos second, Option.some.injEq] at found₂
        rw [second] at lt
        have := (clear scope₁ factor₁ found₁).1
        omega
      · rw [if_neg second] at found₂
        exact wellFormed.nonIncreasing scope₁ scope₂ factor₁ factor₂ lt found₁ found₂
  · intro scope' factor' found
    dsimp only at found
    split at found
    · rw [Option.some.injEq] at found
      rw [← found]
      exact ⟨factor.pos, factor.lt⟩
    · exact wellFormed.inRange scope' factor' found
  · simp only [Ne.symm notRoot, if_false]
    exact wellFormed.noRoot

theorem Built.wellFormed {property : ReplicationProperty} (built : Built property) :
    property.WellFormed := by
  induction built with
  | new factor => exact new_wellFormed factor
  | withScope scope factor created => exact withScope_wellFormed created
  | setScope scope factor _ set ih => exact setScope_wellFormed ih set

theorem WellFormed.numCopies {property : ReplicationProperty} (wellFormed : property.WellFormed) :
    ∃ copies, property.numCopies = some copies ∧ property.IsLargestFactor copies := by
  obtain ⟨scope, factor, found⟩ := wellFormed.nonEmpty
  cases first : property.numCopies with
  | none =>
    have undefined := List.findSome?_eq_none_iff.mp first scope (LocationScope.mem_ascending scope)
    rw [found] at undefined
    cases undefined
  | some copies =>
    refine ⟨copies, rfl, ?_⟩
    obtain ⟨before, narrowest, after, split, copiesAt, skipped⟩ := List.findSome?_eq_some_iff.mp first
    refine ⟨⟨narrowest, copiesAt⟩, fun scope' factor' found' => ?_⟩
    have sorted : LocationScope.ascending.Pairwise fun scope scope' => scope.toU8 < scope'.toU8 := by
      decide
    have member := LocationScope.mem_ascending scope'
    rw [split] at sorted member
    rcases List.mem_append.mp member with earlier | later
    · rw [skipped scope' earlier] at found'
      cases found'
    · rcases List.mem_cons.mp later with same | wider
      · rw [same, copiesAt, Option.some.injEq] at found'
        exact Nat.le_of_eq found'.symm
      · have lt := List.rel_of_pairwise_cons (List.pairwise_append.mp sorted).2.1 wider
        exact wellFormed.nonIncreasing narrowest scope' copies factor' lt copiesAt found'

/-- The factors of `property` at the given scopes only: what `from_str` has built after reading
the entries of these scopes. -/
def restrict (property : ReplicationProperty) (scopes : List LocationScope) : ReplicationProperty :=
  ⟨fun scope => if scope ∈ scopes then property.factors scope else none⟩

theorem restrict_entries (property : ReplicationProperty) :
    property.restrict (property.entries.map Prod.fst) = property := by
  obtain ⟨factors⟩ := property
  simp only [restrict, ReplicationProperty.mk.injEq]
  funext scope
  split
  · rfl
  · rename_i unlisted
    cases found : factors scope with
    | none => rfl
    | some factor =>
      exact absurd (List.mem_map_of_mem (f := Prod.fst) (mem_entries.mpr found)) unlisted

theorem setScope_next {property : ReplicationProperty} (wellFormed : property.WellFormed)
    {done rest : List (LocationScope × Nat)} {scope : LocationScope} {factor : NonZeroU8}
    (listed : property.entries = done ++ (scope, factor.get) :: rest) :
    (property.restrict (done.map Prod.fst)).setScope scope factor =
      some (.ok (property.restrict ((done ++ [(scope, factor.get)]).map Prod.fst))) := by
  have found : property.factors scope = some factor.get :=
    mem_entries.mp (listed ▸ List.mem_append_right done List.mem_cons_self)
  have notRoot : scope ≠ .root := fun same => by
    rw [same, wellFormed.noRoot] at found
    cases found
  have sorted := entries_pairwise property
  rw [listed, List.pairwise_append] at sorted
  refine setScope_ok.mpr ⟨notRoot, conflict?_eq_none_iff.mpr ?_, ?_⟩
  · intro scope' factor' found'
    simp only [restrict, Option.ite_none_right_eq_some] at found'
    obtain ⟨read, found'⟩ := found'
    obtain ⟨⟨scope'', factor''⟩, member, same⟩ := List.mem_map.mp read
    dsimp only at same
    subst same
    have narrower : scope''.toU8 < scope.toU8 := sorted.2.2 _ member _ List.mem_cons_self
    have more := wellFormed.nonIncreasing _ scope factor' factor.get narrower found' found
    omega
  · simp only [restrict, ReplicationProperty.mk.injEq, List.map_append, List.mem_append,
      List.map_cons, List.map_nil, List.mem_singleton]
    funext scope'
    by_cases same : scope' = scope
    · simp [same, found]
    · by_cases read : scope' ∈ done.map Prod.fst <;> simp [read, same]

theorem fromGroups_rebuild {property : ReplicationProperty} (wellFormed : property.WellFormed) :
    ∀ (rest done : List (LocationScope × Nat)), property.entries = done ++ rest →
      fromGroups (rest.map printedGroup) (some (property.restrict (done.map Prod.fst))) =
        some (.ok property)
  | [], done, listed => by
    rw [List.append_nil] at listed
    rw [List.map_nil, fromGroups, ← listed, restrict_entries]
  | (scope, factor) :: rest, done, listed => by
    have found : property.factors scope = some factor :=
      mem_entries.mp (listed ▸ List.mem_append_right done List.mem_cons_self)
    obtain ⟨pos, lt⟩ := wellFormed.inRange scope factor found
    have next := @setScope_next property wellFormed done rest scope ⟨factor, pos, lt⟩ listed
    simp only [List.map_cons, printedGroup, fromGroups, NonZeroU8.fromStr_toDigits pos lt, next]
    exact fromGroups_rebuild wellFormed rest _ (by rw [listed, List.append_assoc, List.singleton_append])

theorem fromGroups_entries {property : ReplicationProperty} (wellFormed : property.WellFormed)
    {first : LocationScope × Nat} {rest : List (LocationScope × Nat)}
    (listed : property.entries = first :: rest) :
    fromGroups ((first :: rest).map printedGroup) none = some (.ok property) := by
  obtain ⟨scope, factor⟩ := first
  have found : property.factors scope = some factor := mem_entries.mp (listed ▸ List.mem_cons_self)
  obtain ⟨pos, lt⟩ := wellFormed.inRange scope factor found
  -- `with_scope` builds the property at its narrowest scope
  have started : withScope scope ⟨factor, pos, lt⟩ = some (property.restrict [scope]) := by
    have notRoot : scope ≠ .root := fun same => by
      rw [same, wellFormed.noRoot] at found
      cases found
    have below : scope.toU8 < LocationScope.root.toU8 := by
      cases scope <;> first | exact absurd rfl notRoot | decide
    simp only [withScope, if_pos below, restrict, List.mem_singleton, Option.some.injEq,
      ReplicationProperty.mk.injEq]
    funext scope'
    by_cases same : scope' = scope
    · simp [same, found]
    · simp [same]
  simp only [List.map_cons, printedGroup, fromGroups, NonZeroU8.fromStr_toDigits pos lt, started]
  exact fromGroups_rebuild wellFormed rest [(scope, factor)] listed

theorem fromStr_display [ScopeCaptures] {property : ReplicationProperty} (wellFormed : property.WellFormed) :
    fromStr property.display = some (.ok property) := by
  obtain ⟨scope, factor, found⟩ := wellFormed.nonEmpty
  obtain ⟨first, rest, listed⟩ := List.exists_cons_of_ne_nil
    (List.ne_nil_of_mem (mem_entries.mpr found))
  have named : ∀ entry ∈ property.entries, entry.1 ≠ .root := by
    rintro ⟨scope', factor'⟩ member same
    have noRoot := wellFormed.noRoot
    rw [← same, mem_entries.mp member] at noRoot
    cases noRoot
  have brace : NonZeroU8.fromStr property.display.toList = none := by
    rw [toList_display, List.cons_append, NonZeroU8.fromStr_brace]
  unfold fromStr
  rw [brace]
  dsimp only
  have groups : ScopeCaptures.groups property.display.toList = some (property.entries.map printedGroup) := by
    rw [toList_display, listed]
    exact ScopeCaptures.groups_printed first rest (listed ▸ named)
  rw [groups]
  dsimp only
  rw [listed]
  exact fromGroups_entries wellFormed listed

theorem fromGroups_built {property : ReplicationProperty} :
    ∀ (groups : List (LocationScope × List Char)) (current : Option ReplicationProperty),
      (∀ built, current = some built → Built built) →
      fromGroups groups current = some (.ok property) → Built property
  | [], none, _, parsed => by cases parsed
  | [], some built, soFar, parsed => by
    rw [fromGroups, Option.some.injEq, Except.ok.injEq] at parsed
    exact parsed ▸ soFar built rfl
  | (scope, digits) :: rest, current, soFar, parsed => by
    unfold fromGroups at parsed
    split at parsed
    · cases parsed
    · rename_i factor _
      split at parsed
      · split at parsed
        · rename_i started
          exact fromGroups_built rest _ (fun built same => Option.some.inj same ▸ Built.withScope scope factor started) parsed
        · cases parsed
      · rename_i previous
        split at parsed
        · rename_i set
          exact fromGroups_built rest _
            (fun built same => Option.some.inj same ▸ Built.setScope scope factor (soFar previous rfl) set) parsed
        · cases parsed
        · cases parsed

theorem fromStr_built [ScopeCaptures] {s : String} {property : ReplicationProperty}
    (parsed : fromStr s = some (.ok property)) : Built property := by
  unfold fromStr at parsed
  split at parsed
  · rename_i factor _
    rw [Option.some.injEq, Except.ok.injEq] at parsed
    exact parsed ▸ Built.new factor
  · split at parsed
    · exact fromGroups_built _ none (fun _ none => by cases none) parsed
    · cases parsed

end ReplicationProperty

/-- Every replication property that `new`, `with_scope` and successful `set_scope` calls build
has factors that do not grow from narrower to wider scopes, `num_copies` is its largest factor, and
`FromStr` reads its `Display` back; every property `FromStr` accepts is built that way, so its
factors do not grow either. -/
theorem replication_property_display_round_trip [ReplicationProperty.ScopeCaptures] :
    (∀ property : ReplicationProperty, ReplicationProperty.Built property →
      property.NonIncreasing ∧
        (∃ copies, property.numCopies = some copies ∧ property.IsLargestFactor copies) ∧
        ReplicationProperty.fromStr property.display = some (.ok property)) ∧
    ∀ (s : String) (property : ReplicationProperty),
      ReplicationProperty.fromStr s = some (.ok property) → property.NonIncreasing := by
  refine ⟨fun property built => ?_, fun s property parsed => ?_⟩
  · have wellFormed := built.wellFormed
    exact ⟨wellFormed.nonIncreasing, wellFormed.numCopies,
      ReplicationProperty.fromStr_display wellFormed⟩
  · exact (ReplicationProperty.fromStr_built parsed).wellFormed.nonIncreasing

/-- The scan runs the two regexes. -/
instance scanCaptures : ReplicationProperty.ScopeCaptures :=
  ⟨ReplicationProperty.scopeGroups, ReplicationProperty.scopeGroups_printed⟩

def threeCopies : NonZeroU8 := ⟨3, by decide, by decide⟩

theorem threeCopies_display_round_trip :
    (ReplicationProperty.new threeCopies).NonIncreasing ∧
      (∃ copies, (ReplicationProperty.new threeCopies).numCopies = some copies ∧
        (ReplicationProperty.new threeCopies).IsLargestFactor copies) ∧
      ReplicationProperty.fromStr (ReplicationProperty.new threeCopies).display =
        some (.ok (ReplicationProperty.new threeCopies)) :=
  replication_property_display_round_trip.1 _ (ReplicationProperty.Built.new threeCopies)

end Restate
