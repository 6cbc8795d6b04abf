import SlotScript.Proofs.Syntax.Grammar

/-! # What is parsed is derived

A parser of a level that succeeds has read a form of that level, from the front of its tokens, and
the tree it returns is the one the form spells. There is one lemma for each parser, over the parsers
one level of nesting deeper; the limit on nesting is what they are tied together by.
-/

namespace SlotScript

/-- The operators that the parser of a level reads. -/
def BinaryLevel.operators : BinaryLevel → Parser.OperatorTable
  | term => Parser.termOperators
  | additive => Parser.additiveOperators
  | relational => Parser.relationalOperators
  | equality => Parser.equalityOperators
  | bitAnd => Parser.bitAndOperators
  | bitXor => Parser.bitXorOperators
  | bitOr => Parser.bitOrOperators

theorem BinaryLevel.operators_eq_some_iff {level : BinaryLevel} {kind : TokenKind}
    {op : BinaryOperator} : level.operators kind = some op ↔ op.level = level ∧ kind = op.kind := by
  constructor
  · intro h
    cases level <;> cases kind <;> cases h <;> exact ⟨rfl, rfl⟩
  · rintro ⟨rfl, rfl⟩
    cases op <;> rfl

/-- The level of a form at which nesting is counted. -/
def NestedForm.level : NestedForm → Level
  | expression => .expression
  | coalesce => .coalesce
  | unary => .unary

theorem Parser.connectiveKind_eq (op : Connective) : connectiveKind op = op.kind := by
  cases op <;> rfl

namespace Parser

/-- What the parser reads is a form of the level that is not nested too deeply. -/
def Reads (level : Level) (limit : Nat) (parser : Parser Expr) : Prop :=
  ∀ ⦃ts rest : List Token⦄ ⦃e : Expr⦄, parser ts = .ok (e, rest) →
    ∃ used, ts = used ++ rest ∧ Derives level used e ∧ e.nesting < limit

variable {α β : Type}

theorem bind_ok {x : Except CompileError α} {f : α → Except CompileError β} {b : β}
    (h : (x >>= f) = .ok b) : ∃ a, x = .ok a ∧ f a = .ok b := by
  cases x with
  | error e => cases h
  | ok a => exact ⟨a, rfl, h⟩

theorem expect_ok {kind : TokenKind} {ts rest : List Token} (h : expect kind ts = .ok rest) :
    ∃ token, token.kind = kind ∧ ts = token :: rest := by
  cases ts with
  | nil => cases h
  | cons token ts =>
      simp only [expect] at h
      split at h
      case isTrue same =>
        cases h
        exact ⟨token, same, rfl⟩
      case isFalse => cases h

theorem target_ok {ts rest : List Token} {key : String} (h : target ts = .ok (key, rest)) :
    ∃ dollar name, dollar.kind = .dollar ∧ name.kind.isSlotName ∧ key = "$" ++ name.text ∧
      ts = dollar :: name :: rest := by
  obtain ⟨after, dollar_read, later⟩ := bind_ok h
  obtain ⟨dollar, is_dollar, rfl⟩ := expect_ok dollar_read
  cases after with
  | nil => cases later
  | cons name after =>
      simp only at later
      split at later
      · cases later
      · split at later
        · cases later
        · split at later
          · cases later
            refine ⟨dollar, name, is_dollar, ?_, rfl, rfl⟩
            simp_all [TokenKind.isSlotName]
          · cases later

variable {limit : Nat}

theorem reads_binaryTail {level : BinaryLevel} {operand : Parser Expr}
    (reads : Reads level.operand limit operand) (fuel : Nat) {left e : Expr} {ts rest : List Token}
    (h : binaryTail level.operators operand fuel left ts = .ok (e, rest)) :
    ∃ used, ts = used ++ rest ∧ Continues level left used e ∧
      (left.nesting < limit → e.nesting < limit) := by
  induction fuel generalizing left ts with
  | zero =>
      cases h
      exact ⟨[], rfl, .done level e, id⟩
  | succ fuel ih =>
      cases ts with
      | nil =>
          cases h
          exact ⟨[], rfl, .done level e, id⟩
      | cons sign ts =>
          unfold binaryTail at h
          split at h
          case h_1 op found =>
            obtain ⟨rfl, sign_kind⟩ := BinaryLevel.operators_eq_some_iff.mp found
            obtain ⟨⟨right, after⟩, parsed, later⟩ := bind_ok h
            obtain ⟨used, rfl, derived, right_nests⟩ := reads parsed
            obtain ⟨others, rfl, continued, nests⟩ := ih later
            refine ⟨sign :: (used ++ others), by simp, .more sign_kind derived continued, ?_⟩
            intro left_nests
            exact nests (Nat.max_lt.mpr ⟨left_nests, right_nests⟩)
          case h_2 =>
            cases h
            exact ⟨[], rfl, .done level e, id⟩

theorem reads_binaryLevel {level : BinaryLevel} {operand : Parser Expr}
    (reads : Reads level.operand limit operand) :
    Reads (.binary level) limit (binaryLevel level.operators operand) := by
  intro ts rest e h
  obtain ⟨⟨first, after⟩, parsed, later⟩ := bind_ok h
  obtain ⟨used, rfl, derived, first_nests⟩ := reads parsed
  obtain ⟨others, rfl, continued, nests⟩ := reads_binaryTail reads _ later
  exact ⟨used ++ others, by simp, .binary derived continued, nests first_nests⟩

theorem reads_operands {op : Connective} {operand : Parser Expr}
    (reads : Reads op.operand limit operand) (fuel : Nat) {operands : Operands}
    {ts rest : List Token}
    (h : Parser.operands (connectiveKind op) operand fuel ts = .ok (operands, rest)) :
    ∃ used, ts = used ++ rest ∧ Chains op used operands ∧ operands.nesting < limit := by
  induction fuel generalizing operands ts with
  | zero =>
      obtain ⟨⟨e, after⟩, parsed, later⟩ := bind_ok h
      obtain ⟨used, rfl, derived, nests⟩ := reads parsed
      cases later
      exact ⟨used, rfl, .last derived, nests⟩
  | succ fuel ih =>
      obtain ⟨⟨e, after⟩, parsed, later⟩ := bind_ok h
      obtain ⟨used, rfl, derived, nests⟩ := reads parsed
      cases after with
      | nil =>
          cases later
          exact ⟨used, rfl, .last derived, nests⟩
      | cons sign after =>
          simp only at later
          split at later
          case isTrue sign_kind =>
            obtain ⟨⟨more, after⟩, parsed, last⟩ := bind_ok later
            cases last
            obtain ⟨others, rfl, chained, more_nests⟩ := ih parsed
            rw [connectiveKind_eq] at sign_kind
            exact ⟨used ++ sign :: others, by simp, .next derived sign_kind chained,
              Nat.max_lt.mpr ⟨nests, more_nests⟩⟩
          case isFalse =>
            cases later
            exact ⟨used, rfl, .last derived, nests⟩

theorem reads_chainLevel {op : Connective} {operand : Parser Expr}
    (reads : Reads op.operand limit operand) :
    Reads (.chain op) limit (chainLevel op operand) := by
  intro ts rest e h
  obtain ⟨⟨first, after⟩, parsed, later⟩ := bind_ok h
  obtain ⟨used, rfl, derived, nests⟩ := reads parsed
  cases after with
  | nil =>
      cases later
      exact ⟨used, rfl, .alone rfl derived, nests⟩
  | cons sign after =>
      simp only at later
      split at later
      case isTrue sign_kind =>
        obtain ⟨⟨more, after⟩, parsed, last⟩ := bind_ok later
        obtain ⟨others, rfl, chained, more_nests⟩ := reads_operands reads _ parsed
        cases last
        rw [connectiveKind_eq] at sign_kind
        exact ⟨used ++ sign :: others, by simp, .chain derived sign_kind chained,
          Nat.max_lt.mpr ⟨nests, more_nests⟩⟩
      case isFalse =>
        cases later
        exact ⟨used, rfl, .alone rfl derived, nests⟩

variable {inner : NestedForm → Parser Expr}

theorem reads_reference (reads : ∀ form, Reads form.level limit (inner form)) {dollar : Token}
    (is_dollar : dollar.kind = .dollar) {ts rest : List Token} {e : Expr}
    (h : reference inner ts = .ok (e, rest)) :
    ∃ used, dollar :: ts = used ++ rest ∧ Derives .primary used e ∧ e.nesting < limit + 1 := by
  cases ts with
  | nil => cases h
  | cons name ts =>
      simp only [reference] at h
      split at h
      case isTrue reserved =>
        cases h
        exact ⟨[dollar, name], rfl, .parameter is_dollar reserved, Nat.succ_pos _⟩
      case isFalse not_parameter =>
        split at h
        case isTrue reserved =>
          cases h
          exact ⟨[dollar, name], rfl, .self is_dollar reserved, Nat.succ_pos _⟩
        case isFalse not_self =>
          split at h
          case isFalse => cases h
          case isTrue named =>
            have slot : name.kind.isSlotName := by
              simp [TokenKind.isSlotName, named, not_parameter, not_self]
            cases ts with
            | nil =>
                cases h
                exact ⟨[dollar, name], rfl, .slot is_dollar slot, Nat.succ_pos _⟩
            | cons sign ts =>
                simp only at h
                split at h
                case h_1 sign_kind =>
                  cases h
                  exact ⟨[dollar, name, sign], rfl, .countAfter is_dollar slot rfl sign_kind,
                    Nat.succ_pos _⟩
                case h_2 sign_kind =>
                  cases h
                  exact ⟨[dollar, name, sign], rfl, .countAfter is_dollar slot rfl sign_kind,
                    Nat.succ_pos _⟩
                case h_3 opens =>
                  obtain ⟨⟨index, after⟩, parsed, later⟩ := bind_ok h
                  obtain ⟨stop, expected, last⟩ := bind_ok later
                  obtain ⟨used, rfl, derived, nests⟩ := reads .expression parsed
                  obtain ⟨right, closes, rfl⟩ := expect_ok expected
                  cases last
                  exact ⟨dollar :: name :: sign :: (used ++ [right]), by simp,
                    .element is_dollar slot opens derived closes, Nat.succ_lt_succ nests⟩
                case h_4 =>
                  cases h
                  exact ⟨[dollar, name], rfl, .slot is_dollar slot, Nat.succ_pos _⟩

theorem reads_primary (reads : ∀ form, Reads form.level limit (inner form)) :
    Reads .primary (limit + 1) (primary inner) := by
  intro ts rest e h
  cases ts with
  | nil => cases h
  | cons token ts =>
      simp only [primary] at h
      split at h
      case h_1 opens =>
        obtain ⟨⟨e, after⟩, parsed, later⟩ := bind_ok h
        obtain ⟨stop, expected, last⟩ := bind_ok later
        obtain ⟨used, rfl, derived, nests⟩ := reads .expression parsed
        obtain ⟨right, closes, rfl⟩ := expect_ok expected
        cases last
        exact ⟨token :: (used ++ [right]), by simp, .group opens derived closes,
          Nat.succ_lt_succ nests⟩
      case h_8 dollar => exact reads_reference reads dollar h
      case h_9 => cases h
      all_goals
        cases h
        refine ⟨[token], rfl, .constant ?_, Nat.succ_pos _⟩
        simp only [Token.constant?, *]

theorem unaryOperator?_eq_some_iff {kind : TokenKind} {op : UnaryOperator} :
    unaryOperator? kind = some op ↔ kind = op.kind := by
  constructor
  · intro h
    cases kind <;> cases h <;> rfl
  · rintro rfl
    cases op <;> rfl

theorem reads_unary (reads : ∀ form, Reads form.level limit (inner form)) :
    Reads .unary (limit + 1) (unary inner) := by
  intro ts rest e h
  cases ts with
  | nil => cases h
  | cons sign ts =>
      simp only [unary] at h
      split at h
      case h_1 sign_kind =>
        obtain ⟨⟨key, after⟩, written, last⟩ := bind_ok h
        obtain ⟨dollar, name, is_dollar, slot, rfl, rfl⟩ := target_ok written
        cases last
        exact ⟨[sign, dollar, name], rfl, .countBefore rfl sign_kind is_dollar slot,
          Nat.succ_pos _⟩
      case h_2 sign_kind =>
        obtain ⟨⟨key, after⟩, written, last⟩ := bind_ok h
        obtain ⟨dollar, name, is_dollar, slot, rfl, rfl⟩ := target_ok written
        cases last
        exact ⟨[sign, dollar, name], rfl, .countBefore rfl sign_kind is_dollar slot,
          Nat.succ_pos _⟩
      case h_3 =>
        split at h
        case h_1 op found =>
          obtain ⟨⟨e, after⟩, parsed, last⟩ := bind_ok h
          obtain ⟨used, rfl, derived, nests⟩ := reads .unary parsed
          cases last
          exact ⟨sign :: used, rfl, .unary (unaryOperator?_eq_some_iff.mp found) derived,
            Nat.succ_lt_succ nests⟩
        case h_2 =>
          obtain ⟨used, consumed, derived, nests⟩ := reads_primary reads h
          exact ⟨used, consumed, .alone rfl derived, nests⟩

theorem reads_relational (operand_reads : Reads (.binary .additive) limit (additive inner)) :
    Reads (.binary .relational) limit (relational inner) := by
  have binary_reads : Reads (.binary .relational) limit
      (binaryLevel relationalOperators (additive inner)) := reads_binaryLevel operand_reads
  intro ts rest e h
  obtain ⟨⟨e', after⟩, parsed, later⟩ := bind_ok h
  simp only at later
  split at later
  case isTrue => cases later
  case isFalse =>
    cases later
    exact binary_reads parsed

theorem reads_disjunction (reads : ∀ form, Reads form.level limit (inner form)) :
    Reads (.chain .or) (limit + 1) (disjunction inner) := by
  have unary_reads := reads_unary reads
  have term_reads : Reads (.binary .term) _ (term inner) := reads_binaryLevel unary_reads
  have additive_reads : Reads (.binary .additive) _ (additive inner) :=
    reads_binaryLevel term_reads
  have relational_reads := reads_relational additive_reads
  have equality_reads : Reads (.binary .equality) _ (equality inner) :=
    reads_binaryLevel relational_reads
  have bitAnd_reads : Reads (.binary .bitAnd) _ (bitAnd inner) := reads_binaryLevel equality_reads
  have bitXor_reads : Reads (.binary .bitXor) _ (bitXor inner) := reads_binaryLevel bitAnd_reads
  have bitOr_reads : Reads (.binary .bitOr) _ (bitOr inner) := reads_binaryLevel bitXor_reads
  have conjunction_reads : Reads (.chain .and) _ (conjunction inner) :=
    reads_chainLevel bitOr_reads
  exact reads_chainLevel conjunction_reads

theorem reads_coalesce (reads : ∀ form, Reads form.level limit (inner form)) :
    Reads .coalesce (limit + 1) (coalesce inner) := by
  intro ts rest e h
  obtain ⟨⟨left, after⟩, parsed, later⟩ := bind_ok h
  obtain ⟨used, rfl, derived, nests⟩ := reads_disjunction reads parsed
  cases after with
  | nil =>
      cases later
      exact ⟨used, rfl, .alone rfl derived, nests⟩
  | cons sign after =>
      simp only at later
      split at later
      case isTrue sign_kind =>
        obtain ⟨⟨right, after⟩, parsed, last⟩ := bind_ok later
        obtain ⟨others, rfl, right_derived, right_nests⟩ := reads .coalesce parsed
        cases last
        exact ⟨used ++ sign :: others, by simp, .coalesce derived sign_kind right_derived,
          Nat.max_lt.mpr ⟨nests, Nat.succ_lt_succ right_nests⟩⟩
      case isFalse =>
        cases later
        exact ⟨used, rfl, .alone rfl derived, nests⟩

theorem reads_conditional (reads : ∀ form, Reads form.level limit (inner form)) :
    Reads .conditional (limit + 1) (conditional inner) := by
  intro ts rest e h
  obtain ⟨⟨condition, after⟩, parsed, later⟩ := bind_ok h
  obtain ⟨used, rfl, derived, nests⟩ := reads_coalesce reads parsed
  cases after with
  | nil =>
      cases later
      exact ⟨used, rfl, .alone rfl derived, nests⟩
  | cons question after =>
      simp only at later
      split at later
      case isTrue question_kind =>
        obtain ⟨⟨yes, after⟩, yes_parsed, later⟩ := bind_ok later
        obtain ⟨stop, expected, later⟩ := bind_ok later
        obtain ⟨⟨no, after'⟩, no_parsed, last⟩ := bind_ok later
        obtain ⟨us, rfl, yes_derived, yes_nests⟩ := reads .expression yes_parsed
        obtain ⟨colon, colon_kind, rfl⟩ := expect_ok expected
        obtain ⟨vs, rfl, no_derived, no_nests⟩ := reads .expression no_parsed
        cases last
        refine ⟨used ++ question :: (us ++ colon :: vs), by simp,
          .conditional derived question_kind yes_derived colon_kind no_derived, ?_⟩
        have branches := Nat.max_lt.mpr
          ⟨Nat.succ_lt_succ yes_nests, Nat.succ_lt_succ no_nests⟩
        exact Nat.max_lt.mpr ⟨nests, branches⟩
      case isFalse =>
        cases later
        exact ⟨used, rfl, .alone rfl derived, nests⟩

theorem closing?_some {depth : Nat} {ts closing : List Token}
    (h : closing? depth ts = some closing) :
    ∃ front right tail, ts = front ++ closing ∧ closing = right :: tail ∧
      right.kind = .closeBracket := by
  induction ts generalizing depth with
  | nil => cases h
  | cons token ts ih =>
      unfold closing? at h
      split at h
      case isTrue =>
        obtain ⟨front, right, tail, rfl, same, closes⟩ := ih h
        exact ⟨token :: front, right, tail, rfl, same, closes⟩
      case isFalse =>
        split at h
        case isTrue closes =>
          split at h
          · cases h
            exact ⟨[], token, ts, rfl, rfl, closes⟩
          · obtain ⟨front, right, tail, rfl, same, closes⟩ := ih h
            exact ⟨token :: front, right, tail, rfl, same, closes⟩
        case isFalse =>
          obtain ⟨front, right, tail, rfl, same, closes⟩ := ih h
          exact ⟨token :: front, right, tail, rfl, same, closes⟩

theorem derives_slotAssignment {dollar name sign : Token} {form : AssignmentForm}
    (is_dollar : dollar.kind = .dollar) (slot : name.kind.isSlotName)
    (sign_kind : assignmentOperator? sign.kind = some (.ok form)) {ts : List Token} {e : Expr}
    (derived : Derives .expression ts e) :
    Derives .expression (dollar :: name :: sign :: ts) (form.node ("$" ++ name.text) e) ∧
      (form.node ("$" ++ name.text) e).nesting = e.nesting + 1 := by
  cases kind : sign.kind <;> rw [kind] at sign_kind <;> cases sign_kind
  · exact ⟨.update is_dollar slot kind derived, rfl⟩
  · exact ⟨.update is_dollar slot kind derived, rfl⟩
  · exact ⟨.update is_dollar slot kind derived, rfl⟩
  · exact ⟨.update is_dollar slot kind derived, rfl⟩
  · exact ⟨.fill is_dollar slot kind derived, rfl⟩
  · exact ⟨.assign is_dollar slot kind derived, rfl⟩

theorem reads_slotAssignment (reads : ∀ form, Reads form.level limit (inner form))
    {operator : Except UnsupportedOperator AssignmentForm} {ts rest : List Token} {e : Expr}
    (here : (kindAt? ts 2).bind assignmentOperator? = some operator)
    (h : slotAssignment inner operator ts = .ok (e, rest)) :
    ∃ used, ts = used ++ rest ∧ Derives .expression used e ∧ e.nesting < limit + 1 := by
  obtain ⟨⟨key, after⟩, written, later⟩ := bind_ok h
  obtain ⟨dollar, name, is_dollar, slot, rfl, rfl⟩ := target_ok written
  cases after with
  | nil => cases here
  | cons sign after =>
      cases operator with
      | error => cases later
      | ok form =>
          obtain ⟨⟨e', after'⟩, parsed, last⟩ := bind_ok later
          obtain ⟨used, consumed, derived, nests⟩ := reads .expression parsed
          obtain rfl : after = used ++ after' := consumed
          cases last
          obtain ⟨assigned, deeper⟩ := derives_slotAssignment is_dollar slot here derived
          exact ⟨_, rfl, assigned, deeper ▸ Nat.succ_lt_succ nests⟩

theorem reads_elementAssignment (reads : ∀ form, Reads form.level limit (inner form))
    {ts rest closing : List Token} {e : Expr} (opens : kindAt? ts 2 = some .openBracket)
    (closes : closing? 0 (ts.drop 3) = some closing) (equals : kindAt? closing 1 = some .equals)
    (h : elementAssignment inner closing ts = .ok (e, rest)) :
    ∃ used, ts = used ++ rest ∧ Derives .expression used e ∧ e.nesting < limit + 1 := by
  obtain ⟨⟨key, after⟩, written, later⟩ := bind_ok h
  obtain ⟨dollar, name, is_dollar, slot, rfl, rfl⟩ := target_ok written
  obtain ⟨⟨value, behind⟩, value_parsed, later⟩ := bind_ok later
  obtain ⟨⟨index, stop⟩, index_parsed, last⟩ := bind_ok later
  cases after with
  | nil => cases opens
  | cons left after =>
      obtain ⟨front, right, tail, inside, rfl, right_kind⟩ := closing?_some closes
      obtain ⟨used, consumed, index_derived, index_nests⟩ := reads .expression index_parsed
      simp only at last
      split at last
      case isFalse => cases last
      case isTrue same_length =>
        -- Both are what is left of the same tokens, so the index ends at the bracket.
        obtain ⟨rfl, rfl⟩ : used = front ∧ stop = right :: tail := by
          have split : used ++ stop = front ++ right :: tail := consumed.symm.trans inside
          exact List.append_inj' split same_length
        cases tail with
        | nil => cases equals
        | cons sign tail =>
            obtain ⟨us, value_consumed, value_derived, value_nests⟩ :=
              reads .expression value_parsed
            obtain rfl : tail = us ++ behind := value_consumed
            cases last
            refine ⟨dollar :: name :: left :: (used ++ right :: sign :: us), ?_, ?_, ?_⟩
            · simpa using inside
            · exact .assignElement is_dollar slot (Option.some.inj opens) index_derived right_kind
                (Option.some.inj equals) value_derived
            · exact Nat.max_lt.mpr ⟨Nat.succ_lt_succ index_nests, Nat.succ_lt_succ value_nests⟩

theorem reads_assignment (reads : ∀ form, Reads form.level limit (inner form)) :
    Reads .expression (limit + 1) (assignment inner) := by
  intro ts rest e h
  have alone (h : conditional inner ts = .ok (e, rest)) :
      ∃ used, ts = used ++ rest ∧ Derives .expression used e ∧ e.nesting < limit + 1 := by
    obtain ⟨used, consumed, derived, nests⟩ := reads_conditional reads h
    exact ⟨used, consumed, .alone rfl derived, nests⟩
  unfold assignment at h
  split at h
  case isFalse => exact alone h
  case isTrue =>
    split at h
    case h_1 operator found => exact reads_slotAssignment reads found h
    case h_2 =>
      split at h
      case isFalse => exact alone h
      case isTrue opens =>
        split at h
        case h_2 => exact alone h
        case h_1 closing closes =>
          split at h
          case isTrue equals => exact reads_elementAssignment reads opens closes equals h
          case isFalse => exact alone h

theorem reads_nested (budget : Nat) (form : NestedForm) :
    Reads form.level budget (nested budget form) := by
  induction budget generalizing form with
  | zero => nofun
  | succ budget ih =>
      cases form with
      | expression => exact reads_assignment ih
      | coalesce => exact reads_coalesce ih
      | unary => exact reads_unary ih

theorem reads_statements (fuel : Nat) {ts : List Token} {program : Program}
    (enough : ts.length ≤ fuel) (h : statements fuel ts = .ok program) :
    Program.Spelled ts program ∧ program.nesting ≤ maxNesting := by
  induction fuel generalizing ts program with
  | zero =>
      obtain rfl := List.length_eq_zero_iff.mp (Nat.le_zero.mp enough)
      cases h
      exact ⟨.empty, Nat.zero_le _⟩
  | succ fuel ih =>
      cases ts with
      | nil =>
          cases h
          exact ⟨.empty, Nat.zero_le _⟩
      | cons token ts =>
          obtain ⟨⟨e, after⟩, parsed, later⟩ := bind_ok h
          obtain ⟨used, consumed, derived, nests⟩ := reads_nested maxNesting .expression parsed
          rw [consumed] at enough ⊢
          cases after with
          | nil =>
              cases later
              rw [List.append_nil]
              exact ⟨.last derived, Nat.max_le.mpr ⟨nests, Nat.zero_le _⟩⟩
          | cons semicolon after =>
              simp only at later
              split at later
              case isFalse => cases later
              case isTrue is_semicolon =>
                obtain ⟨others, parsed, last⟩ := bind_ok later
                cases last
                have shorter : after.length ≤ fuel := by
                  simp only [List.length_append, List.length_cons] at enough
                  omega
                obtain ⟨spelled, others_nest⟩ := ih shorter parsed
                exact ⟨.more derived is_semicolon spelled, Nat.max_le.mpr ⟨nests, others_nest⟩⟩

end Parser

end SlotScript
