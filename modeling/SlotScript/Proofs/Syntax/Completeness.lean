import SlotScript.Proofs.Syntax.Soundness

/-! # What is derived is parsed

A parser that stands before a form of its level reads just that form, if what comes behind cannot
continue it. Parsers are greedy and look ahead, so this needs to know which tokens continue which
forms: an operator of a looser level or a closing token ends a form, and nothing else may follow one.
-/

namespace SlotScript

/-- The level at which a token joins operands. -/
def TokenKind.joint? : TokenKind → Option Level
  | .asterisk | .slash => some (.binary .term)
  | .plus | .minus => some (.binary .additive)
  | .less | .lessEquals | .greater | .greaterEquals => some (.binary .relational)
  | .equalEqual | .bangEquals => some (.binary .equality)
  | .ampersand => some (.binary .bitAnd)
  | .caret => some (.binary .bitXor)
  | .bar => some (.binary .bitOr)
  | .ampersandAmpersand => some (.chain .and)
  | .barBar => some (.chain .or)
  | .questionQuestion => some .coalesce
  | .question => some .conditional
  | _ => none

/-- Whether a token ends every expression before it. -/
def TokenKind.closes : TokenKind → Bool
  | .semicolon | .closeParen | .closeBracket | .colon => true
  | _ => false

/-- Looser levels have higher ranks. The last operand of a conditional is an expression, so the same
tokens end both. -/
def Level.rank : Level → Nat
  | primary => 0
  | unary => 1
  | binary .term => 2
  | binary .additive => 3
  | binary .relational => 4
  | binary .equality => 5
  | binary .bitAnd => 6
  | binary .bitXor => 7
  | binary .bitOr => 8
  | chain .and => 9
  | chain .or => 10
  | coalesce => 11
  | conditional | expression => 12

/-- Whether a token ends a form of the level before it. -/
def TokenKind.stops (level : Level) (kind : TokenKind) : Bool :=
  kind.closes || kind.joint?.any fun outer => level.rank < outer.rank

/-- A form of the level cannot be continued with these tokens. -/
def Stops (level : Level) : List Token → Prop
  | [] => True
  | token :: _ => token.kind.stops level

theorem Stops.nil (level : Level) : Stops level [] := trivial

theorem Stops.tighter {outer inner : Level} {rest : List Token} (h : Stops outer rest)
    (rank : inner.rank ≤ outer.rank) : Stops inner rest := by
  cases rest with
  | nil => trivial
  | cons token rest =>
      simp only [Stops, TokenKind.stops, Bool.or_eq_true, Option.any_eq_true,
        decide_eq_true_eq] at h ⊢
      obtain closes | ⟨level, joint, looser⟩ := h
      · exact .inl closes
      · exact .inr ⟨level, joint, Nat.lt_of_le_of_lt rank looser⟩

theorem Stops.alone {outer inner : Level} {rest : List Token} (h : Stops outer rest)
    (alone : outer.alone? = some inner) : Stops inner rest := by
  refine h.tighter ?_
  cases outer with
  | primary | binary => cases alone
  | chain op => cases op <;> cases alone <;> decide
  | unary | coalesce | conditional | expression => cases alone; decide

theorem Stops.chain_operand {op : Connective} {rest : List Token} (h : Stops (.chain op) rest) :
    Stops op.operand rest :=
  h.alone rfl

/-- What closes an expression ends every form. -/
theorem Stops.of_closes {token : Token} {kind : TokenKind} (same : token.kind = kind)
    (closes : kind.closes) (level : Level) (rest : List Token) : Stops level (token :: rest) := by
  simp [Stops, TokenKind.stops, same, closes]

theorem BinaryLevel.operand_rank (level : BinaryLevel) :
    level.operand.rank ≤ (Level.binary level).rank := by
  cases level <;> decide

theorem BinaryOperator.stops_operand (op : BinaryOperator) : op.kind.stops op.level.operand := by
  cases op <;> decide

theorem Connective.stops_operand (op : Connective) : op.kind.stops op.operand := by
  cases op <;> decide

theorem BinaryLevel.operators_of_stops {level : BinaryLevel} {kind : TokenKind}
    (h : kind.stops (.binary level)) : level.operators kind = none := by
  cases level <;> cases kind <;> first | rfl | cases h

-- An assignment is told from a slot that is read by what follows the name, so nothing that continues
-- a slot in another expression may look like an assignment.

/-- The tokens are none or begin with one that joins operands. -/
def Joins : List Token → Prop
  | [] => True
  | token :: _ => token.kind.joint?.isSome

/-- What follows the name of a slot where an expression is no assignment. -/
inductive FollowsSlot : List Token → Prop where
  | joins {ts : List Token} : Joins ts → FollowsSlot ts
  | counts {sign : Token} {ts : List Token} (form : Counting) : sign.kind = form.kind →
      FollowsSlot (sign :: ts)
  | index {left right : Token} {ts tail : List Token} : left.kind = .openBracket → Balanced ts →
      right.kind = .closeBracket → Joins tail → FollowsSlot (left :: (ts ++ right :: tail))

theorem FollowsSlot.append {ts tail : List Token} (h : FollowsSlot ts) (joins : Joins tail) :
    FollowsSlot (ts ++ tail) := by
  cases h with
  | joins h =>
      cases ts with
      | nil => exact .joins joins
      | cons token ts => exact .joins h
  | counts form sign => exact .counts form sign
  | @index left right ts tail' opens balanced closes h =>
      rw [List.cons_append, List.append_assoc, List.cons_append]
      refine .index opens balanced closes ?_
      cases tail' with
      | nil => exact joins
      | cons token tail' => exact h

/-- If the tokens begin with a dollar sign, a name and what may follow it come behind. -/
def SlotFirst (ts : List Token) : Prop :=
  ∀ ⦃dollar : Token⦄ ⦃more : List Token⦄, ts = dollar :: more → dollar.kind = .dollar →
    ∃ name tail, more = name :: tail ∧ FollowsSlot tail

namespace SlotFirst

theorem append {ts others : List Token} (h : SlotFirst ts) (nonempty : ts ≠ [])
    (joins : Joins others) : SlotFirst (ts ++ others) := by
  cases ts with
  | nil => exact (nonempty rfl).elim
  | cons token ts =>
      rintro dollar more ⟨⟩ is_dollar
      obtain ⟨name, tail, rfl, follows⟩ := h rfl is_dollar
      exact ⟨name, tail ++ others, rfl, follows.append joins⟩

theorem of_kind {token : Token} {ts : List Token} (h : token.kind ≠ .dollar) :
    SlotFirst (token :: ts) := by
  rintro dollar more ⟨⟩ is_dollar
  exact (h is_dollar).elim

theorem slot {dollar name : Token} {ts : List Token} (h : FollowsSlot ts) :
    SlotFirst (dollar :: name :: ts) := by
  rintro dollar' more ⟨⟩ -
  exact ⟨name, ts, rfl, h⟩

end SlotFirst

theorem Token.not_dollar_of_constant {token : Token} {v : Value} (h : token.constant? = some v) :
    token.kind ≠ .dollar := by
  intro dollar
  simp [constant?, dollar] at h

theorem Level.alone_ne_expression {outer inner : Level} (h : outer.alone? = some inner) :
    inner ≠ .expression := by
  cases outer with
  | primary | binary => cases h
  | chain op => cases op <;> cases h <;> nofun
  | unary | coalesce | conditional | expression => cases h; nofun

theorem BinaryLevel.operand_ne_expression (level : BinaryLevel) : level.operand ≠ .expression := by
  cases level <;> nofun

theorem Connective.operand_ne_expression (op : Connective) : op.operand ≠ .expression := by
  cases op <;> nofun

/-- A form that is no assignment, with the slot in its front. -/
theorem Derives.slotFirst {level : Level} {ts : List Token} {e : Expr} (h : Derives level ts e) :
    level ≠ .expression → SlotFirst ts := by
  induction h using Derives.rec (motive_2 := fun _ _ ts _ _ => Joins ts)
    (motive_3 := fun _ _ _ _ => True) with
  | alone loosens _ ih => exact fun _ => ih (Level.alone_ne_expression loosens)
  | constant h => exact fun _ => .of_kind (Token.not_dollar_of_constant h)
  | group left => exact fun _ => .of_kind (by simp [left])
  | parameter | self | slot => exact fun _ => .slot (.joins trivial)
  | @countAfter _ _ _ form _ _ _ sign => exact fun _ => .slot (.counts form sign)
  | element _ _ left derived right =>
      exact fun _ => .slot (.index left derived.balanced right trivial)
  | @unary _ _ op _ sign => exact fun _ => .of_kind (by rw [sign]; cases op <;> nofun)
  | @countBefore _ _ _ form _ sign => exact fun _ => .of_kind (by rw [sign]; cases form <;> nofun)
  | binary derived _ ih joins =>
      exact fun _ => (ih (BinaryLevel.operand_ne_expression _)).append derived.ne_nil joins
  | @chain op _ _ _ _ _ derived sign _ ih =>
      refine fun _ => (ih op.operand_ne_expression).append derived.ne_nil ?_
      simp only [Joins, sign]
      cases op <;> rfl
  | coalesce derived sign _ ih =>
      refine fun _ => (ih nofun).append derived.ne_nil ?_
      simp only [Joins, sign]
      rfl
  | conditional derived question _ _ _ ih =>
      refine fun _ => (ih nofun).append derived.ne_nil ?_
      simp only [Joins, question]
      rfl
  | assign | update | fill | assignElement => exact fun other => (other rfl).elim
  | done => trivial
  | @more op _ _ _ _ _ _ sign =>
      simp only [Joins, sign]
      cases op <;> rfl
  | last | next => trivial

/-- A tree that is continued is part of the tree that results. -/
theorem Continues.nesting_le {level : BinaryLevel} {left e : Expr} {ts : List Token}
    (h : Continues level left ts e) : left.nesting ≤ e.nesting := by
  induction h using Continues.rec (motive_1 := fun _ _ _ _ => True)
    (motive_3 := fun _ _ _ _ => True) with
  | done => exact Nat.le_refl _
  | more _ _ _ _ ih => exact Nat.le_trans (Nat.le_max_left _ _) ih
  | _ => trivial

theorem Continues.stops {level : BinaryLevel} {left e : Expr} {ts rest : List Token}
    (h : Continues level left ts e) (stops : Stops (.binary level) rest) :
    Stops level.operand (ts ++ rest) := by
  cases h with
  | done => exact stops.tighter level.operand_rank
  | @more op sign _ _ _ _ _ sign_kind =>
      simp only [List.cons_append, Stops, sign_kind]
      exact op.stops_operand

namespace Parser

/-- In front of a form of the level that is not nested too deeply and cannot be continued, the parser
reads just that form. -/
def Accepts (level : Level) (limit : Nat) (parser : Parser Expr) : Prop :=
  ∀ ⦃ts rest : List Token⦄ ⦃e : Expr⦄, Derives level ts e → e.nesting < limit →
    Stops level rest → parser (ts ++ rest) = .ok (e, rest)

variable {limit : Nat}

theorem accepts_binaryTail {level : BinaryLevel} {operand : Parser Expr}
    (accepts : Accepts level.operand limit operand) (fuel : Nat) {left e : Expr}
    {ts rest : List Token} (enough : ts.length ≤ fuel) (h : Continues level left ts e)
    (nests : e.nesting < limit) (stops : Stops (.binary level) rest) :
    binaryTail level.operators operand fuel left (ts ++ rest) = .ok (e, rest) := by
  induction fuel generalizing left ts with
  | zero =>
      cases h with
      | done => rfl
      | more => simp at enough
  | succ fuel ih =>
      cases h with
      | done =>
          cases rest with
          | nil => rfl
          | cons token rest =>
              simp only [List.nil_append, binaryTail]
              rw [BinaryLevel.operators_of_stops stops]
      | @more op sign ts others _ right _ sign_kind derived continued =>
          have found := BinaryLevel.operators_eq_some_iff.mpr ⟨rfl, sign_kind⟩
          have inside := continued.nesting_le
          have right_nests : right.nesting < limit :=
            Nat.lt_of_le_of_lt (Nat.le_trans (Nat.le_max_right _ _) inside) nests
          have operand_read := accepts derived right_nests (continued.stops stops)
          have shorter : others.length ≤ fuel := by
            simp only [List.length_cons, List.length_append] at enough
            omega
          simp only [List.cons_append, List.append_assoc, binaryTail, found]
          rw [operand_read]
          exact ih shorter continued

theorem accepts_binaryLevel {level : BinaryLevel} {operand : Parser Expr}
    (accepts : Accepts level.operand limit operand) :
    Accepts (.binary level) limit (binaryLevel level.operators operand) := by
  intro ts rest e h nests stops
  cases h with
  | alone loosens => cases loosens
  | @binary _ ts others first _ derived continued =>
      have first_nests := Nat.lt_of_le_of_lt continued.nesting_le nests
      have first_read := accepts derived first_nests (continued.stops stops)
      rw [List.append_assoc, binaryLevel, first_read]
      refine accepts_binaryTail accepts _ ?_ continued nests stops
      simp only [List.length_append]
      omega

theorem ne_connective_of_stops {op : Connective} {kind : TokenKind} (h : kind.stops (.chain op)) :
    kind ≠ connectiveKind op := by
  rintro rfl
  cases op <;> cases h

theorem accepts_operands {op : Connective} {operand : Parser Expr}
    (accepts : Accepts op.operand limit operand) (fuel : Nat) {operands : Operands}
    {ts rest : List Token} (enough : ts.length ≤ fuel) (h : Chains op ts operands)
    (nests : operands.nesting < limit) (stops : Stops (.chain op) rest) :
    Parser.operands (connectiveKind op) operand fuel (ts ++ rest) = .ok (operands, rest) := by
  induction fuel generalizing operands ts with
  | zero =>
      cases h with
      | last derived =>
          have read := accepts derived nests stops.chain_operand
          simp only [Parser.operands, read]
          rfl
      | next => simp at enough
  | succ fuel ih =>
      cases h with
      | last derived =>
          have read := accepts derived nests stops.chain_operand
          unfold Parser.operands
          rw [read]
          cases rest with
          | nil => rfl
          | cons token rest => exact if_neg (ne_connective_of_stops stops)
      | @next _ sign ts others e more derived sign_kind chained =>
          obtain ⟨nests, more_nest⟩ := Nat.max_lt.mp nests
          have joined : Stops op.operand (sign :: (others ++ rest)) := by
            simp only [Stops, sign_kind]
            exact op.stops_operand
          have read := accepts derived nests joined
          have shorter : others.length ≤ fuel := by
            simp only [List.length_cons, List.length_append] at enough
            omega
          rw [List.append_assoc, List.cons_append]
          unfold Parser.operands
          rw [read]
          refine (if_pos (sign_kind.trans (connectiveKind_eq op).symm)).trans ?_
          rw [ih shorter chained more_nest]
          rfl

theorem accepts_chainLevel {op : Connective} {operand : Parser Expr}
    (accepts : Accepts op.operand limit operand) :
    Accepts (.chain op) limit (chainLevel op operand) := by
  intro ts rest e h nests stops
  cases h with
  | alone loosens derived =>
      cases loosens
      rw [chainLevel, accepts derived nests stops.chain_operand]
      cases rest with
      | nil => rfl
      | cons token rest => exact if_neg (ne_connective_of_stops stops)
  | @chain _ sign ts others first more derived sign_kind chained =>
      obtain ⟨nests, more_nest⟩ := Nat.max_lt.mp nests
      have joined : Stops op.operand (sign :: (others ++ rest)) := by
        simp only [Stops, sign_kind]
        exact op.stops_operand
      rw [List.append_assoc, List.cons_append, chainLevel, accepts derived nests joined]
      refine (if_pos (sign_kind.trans (connectiveKind_eq op).symm)).trans ?_
      rw [accepts_operands accepts _ (by simp) chained more_nest stops]
      rfl

theorem expect_append {kind : TokenKind} {token : Token} (h : token.kind = kind)
    (rest : List Token) : expect kind (token :: rest) = .ok rest :=
  if_pos h

theorem slotName_facts {kind : TokenKind} (h : kind.isSlotName) :
    kind ≠ .parameterWord ∧ kind ≠ .selfWord ∧ kind.isName := by
  simp only [TokenKind.isSlotName, Bool.and_eq_true, bne_iff_ne] at h
  exact ⟨h.1.2, h.2, h.1.1⟩

theorem target_append {dollar name : Token} (is_dollar : dollar.kind = .dollar)
    (slot : name.kind.isSlotName) (rest : List Token) :
    target (dollar :: name :: rest) = .ok ("$" ++ name.text, rest) := by
  obtain ⟨not_parameter, not_self, named⟩ := slotName_facts slot
  rw [target, expect_append is_dollar]
  exact (if_neg not_parameter).trans ((if_neg not_self).trans (if_pos named))

/-- What would make something else of a slot. -/
theorem not_postfix_of_stops {kind : TokenKind} (h : kind.stops .primary) :
    kind ≠ .plusPlus ∧ kind ≠ .minusMinus ∧ kind ≠ .openBracket := by
  refine ⟨?_, ?_, ?_⟩ <;>
    · rintro rfl
      cases h

variable {inner : NestedForm → Parser Expr}

theorem accepts_primary (accepts : ∀ form, Accepts form.level limit (inner form)) :
    Accepts .primary (limit + 1) (primary inner) := by
  intro ts rest e h nests stops
  cases h with
  | alone loosens => cases loosens
  | @constant token v constant =>
      simp only [Token.constant?] at constant
      split at constant <;> cases constant <;> simp only [List.singleton_append, primary, *]
  | @group left right ts e opens derived closes =>
      have ends : Stops .expression (right :: rest) := .of_closes closes rfl _ _
      have read := accepts .expression derived (Nat.lt_of_succ_lt_succ nests) ends
      simp only [List.cons_append, List.append_assoc, List.nil_append, primary, opens, read]
      simp only [bind, Except.bind, expect_append closes]
      rfl
  | @parameter dollar name is_dollar reserved =>
      simp only [List.cons_append, List.nil_append, primary, is_dollar]
      exact if_pos reserved
  | @self dollar name is_dollar reserved =>
      have other : name.kind ≠ .parameterWord := by simp [reserved]
      simp only [List.cons_append, List.nil_append, primary, is_dollar]
      exact (if_neg other).trans (if_pos reserved)
  | @slot dollar name is_dollar slot =>
      obtain ⟨not_parameter, not_self, named⟩ := slotName_facts slot
      simp only [List.cons_append, List.nil_append, primary, is_dollar, reference, not_parameter,
        not_self, named, if_true, if_false]
      cases rest with
      | nil => rfl
      | cons token rest =>
          obtain ⟨not_up, not_down, not_bracket⟩ := not_postfix_of_stops stops
          simp only
          rfl
  | @countAfter dollar name sign form is_dollar slot after sign_kind =>
      obtain ⟨not_parameter, not_self, named⟩ := slotName_facts slot
      simp only [List.cons_append, List.nil_append, primary, is_dollar, reference, not_parameter,
        not_self, named, if_true, if_false, sign_kind]
      cases form <;> first | rfl | cases after
  | @element dollar name left right ts index is_dollar slot opens derived closes =>
      obtain ⟨not_parameter, not_self, named⟩ := slotName_facts slot
      have ends : Stops .expression (right :: rest) := .of_closes closes rfl _ _
      have read := accepts .expression derived (Nat.lt_of_succ_lt_succ nests) ends
      simp only [List.cons_append, List.append_assoc, List.nil_append, primary, is_dollar,
        reference, not_parameter, not_self, named, if_true, if_false, opens, read]
      simp only [bind, Except.bind, expect_append closes]
      rfl

/-- A primary form does not begin with a sign. -/
theorem unary_append {ts rest : List Token} {e : Expr} (h : Derives .primary ts e) :
    unary inner (ts ++ rest) = primary inner (ts ++ rest) := by
  cases h with
  | alone loosens => cases loosens
  | constant constant =>
      simp only [Token.constant?] at constant
      split at constant <;> cases constant <;>
        simp only [List.singleton_append, unary, unaryOperator?, *]
  | group opens => simp only [List.cons_append, unary, unaryOperator?, opens]
  | parameter dollar | self dollar | slot dollar | countAfter dollar | element dollar =>
      simp only [List.cons_append, unary, unaryOperator?, dollar]

theorem accepts_unary (accepts : ∀ form, Accepts form.level limit (inner form)) :
    Accepts .unary (limit + 1) (unary inner) := by
  intro ts rest e h nests stops
  cases h with
  | alone loosens derived =>
      cases loosens
      rw [unary_append derived]
      exact accepts_primary accepts derived nests (stops.alone rfl)
  | @unary sign ts op e sign_kind derived =>
      have read := accepts .unary derived (Nat.lt_of_succ_lt_succ nests) stops
      have found := unaryOperator?_eq_some_iff.mpr sign_kind
      rw [List.cons_append, unary]
      cases op <;> simp only [sign_kind, UnaryOperator.kind] at found ⊢ <;> rw [found, read] <;> rfl
  | @countBefore dollar name sign form before sign_kind is_dollar slot =>
      have written := target_append is_dollar slot rest
      rw [List.cons_append, unary]
      cases form <;> cases before
      · simp only [sign_kind, Counting.kind, List.cons_append, List.nil_append, written]
        rfl
      · simp only [sign_kind, Counting.kind, List.cons_append, List.nil_append, written]
        rfl

theorem not_shift_of_stops {kind : TokenKind} (h : kind.stops (.binary .relational)) :
    isShift kind = false := by
  cases kind <;> first | rfl | cases h

theorem accepts_relational (accepts : Accepts (.binary .additive) limit (additive inner)) :
    Accepts (.binary .relational) limit (relational inner) := by
  have binary_accepts : Accepts (.binary .relational) limit
      (binaryLevel relationalOperators (additive inner)) := accepts_binaryLevel accepts
  intro ts rest e h nests stops
  rw [relational, binary_accepts h nests stops]
  refine if_neg ?_
  cases rest with
  | nil => nofun
  | cons token rest =>
      simp [kindAt?, not_shift_of_stops stops]

theorem accepts_disjunction (accepts : ∀ form, Accepts form.level limit (inner form)) :
    Accepts (.chain .or) (limit + 1) (disjunction inner) := by
  have unary_accepts := accepts_unary accepts
  have term_accepts : Accepts (.binary .term) _ (term inner) := accepts_binaryLevel unary_accepts
  have additive_accepts : Accepts (.binary .additive) _ (additive inner) :=
    accepts_binaryLevel term_accepts
  have relational_accepts := accepts_relational additive_accepts
  have equality_accepts : Accepts (.binary .equality) _ (equality inner) :=
    accepts_binaryLevel relational_accepts
  have bitAnd_accepts : Accepts (.binary .bitAnd) _ (bitAnd inner) :=
    accepts_binaryLevel equality_accepts
  have bitXor_accepts : Accepts (.binary .bitXor) _ (bitXor inner) :=
    accepts_binaryLevel bitAnd_accepts
  have bitOr_accepts : Accepts (.binary .bitOr) _ (bitOr inner) :=
    accepts_binaryLevel bitXor_accepts
  have conjunction_accepts : Accepts (.chain .and) _ (conjunction inner) :=
    accepts_chainLevel bitOr_accepts
  exact accepts_chainLevel conjunction_accepts

theorem accepts_coalesce (accepts : ∀ form, Accepts form.level limit (inner form)) :
    Accepts .coalesce (limit + 1) (coalesce inner) := by
  intro ts rest e h nests stops
  cases h with
  | alone loosens derived =>
      cases loosens
      rw [coalesce, accepts_disjunction accepts derived nests (stops.alone rfl)]
      cases rest with
      | nil => rfl
      | cons token rest =>
          have ends : token.kind.stops .coalesce := stops
          refine if_neg ?_
          intro same
          rw [same] at ends
          cases ends
  | @coalesce sign ts others left right derived sign_kind right_derived =>
      obtain ⟨nests, right_nests⟩ := Nat.max_lt.mp nests
      have joined : Stops (.chain .or) (sign :: (others ++ rest)) := by
        simp only [Stops, sign_kind]
        rfl
      have right_read := accepts .coalesce right_derived (Nat.lt_of_succ_lt_succ right_nests) stops
      rw [List.append_assoc, List.cons_append, coalesce,
        accepts_disjunction accepts derived nests joined]
      refine (if_pos sign_kind).trans ?_
      rw [right_read]
      rfl

theorem accepts_conditional (accepts : ∀ form, Accepts form.level limit (inner form)) :
    Accepts .conditional (limit + 1) (conditional inner) := by
  intro ts rest e h nests stops
  cases h with
  | alone loosens derived =>
      cases loosens
      rw [conditional, accepts_coalesce accepts derived nests (stops.alone rfl)]
      cases rest with
      | nil => rfl
      | cons token rest =>
          have ends : token.kind.stops .conditional := stops
          refine if_neg ?_
          intro same
          rw [same] at ends
          cases ends
  | @conditional question colon ts us vs condition yes no derived question_kind yes_derived
      colon_kind no_derived =>
      obtain ⟨nests, branches⟩ := Nat.max_lt.mp nests
      obtain ⟨yes_nests, no_nests⟩ := Nat.max_lt.mp branches
      have joined : Stops .coalesce (question :: (us ++ colon :: (vs ++ rest))) := by
        simp only [Stops, question_kind]
        rfl
      have yes_ends : Stops .expression (colon :: (vs ++ rest)) := .of_closes colon_kind rfl _ _
      have yes_read := accepts .expression yes_derived (Nat.lt_of_succ_lt_succ yes_nests) yes_ends
      have no_read := accepts .expression no_derived (Nat.lt_of_succ_lt_succ no_nests)
        (stops.tighter (Nat.le_refl _))
      simp only [List.append_assoc, List.cons_append]
      rw [conditional, accepts_coalesce accepts derived nests joined]
      refine (if_pos question_kind).trans ?_
      simp only [yes_read, bind, Except.bind, expect_append colon_kind, no_read]
      rfl

theorem closes_of_stops {kind : TokenKind} (h : kind.stops .expression) : kind.closes := by
  cases kind <;> first | rfl | cases h

theorem not_assignment_of_closes {kind : TokenKind} (h : kind.closes) :
    assignmentOperator? kind = none ∧ kind ≠ .openBracket ∧ kind ≠ .equals := by
  cases kind <;> first | exact ⟨rfl, by decide, by decide⟩ | cases h

theorem not_assignment_of_joint {kind : TokenKind} (h : kind.joint?.isSome) :
    assignmentOperator? kind = none ∧ kind ≠ .openBracket ∧ kind ≠ .equals := by
  cases kind <;> first | exact ⟨rfl, by decide, by decide⟩ | cases h

/-- Behind tokens that join operands, or none, and an expression's end, no assignment begins. -/
theorem not_assignment_of_joins {ts rest : List Token} (joins : Joins ts)
    (stops : Stops .expression rest) {token : Token} {others : List Token}
    (first : ts ++ rest = token :: others) : assignmentOperator? token.kind = none ∧
      token.kind ≠ .openBracket ∧ token.kind ≠ .equals := by
  cases ts with
  | cons sign ts =>
      obtain ⟨rfl, -⟩ := List.cons.inj first
      exact not_assignment_of_joint joins
  | nil =>
      obtain rfl : rest = token :: others := first
      exact not_assignment_of_closes (closes_of_stops stops)

/-- What follows the name of a slot that is read is taken for no assignment. -/
theorem not_assignment_of_followsSlot {ts rest : List Token} (h : FollowsSlot ts)
    (stops : Stops .expression rest) :
    (kindAt? (ts ++ rest) 0).bind assignmentOperator? = none ∧
      (kindAt? (ts ++ rest) 0 = some .openBracket → ∃ closing,
        closing? 0 ((ts ++ rest).drop 1) = some closing ∧ kindAt? closing 1 ≠ some .equals) := by
  cases h with
  | joins joins =>
      cases first : ts ++ rest with
      | nil => exact ⟨rfl, nofun⟩
      | cons token others =>
          obtain ⟨no_operator, no_bracket, -⟩ := not_assignment_of_joins joins stops first
          refine ⟨no_operator, ?_⟩
          intro bracket
          exact (no_bracket (Option.some.inj bracket)).elim
  | @counts sign ts form sign_kind =>
      have here : kindAt? (sign :: ts ++ rest) 0 = some form.kind := congrArg some sign_kind
      rw [here]
      cases form <;> exact ⟨rfl, nofun⟩
  | @index left right ts tail opens balanced closes joins =>
      have here : kindAt? (left :: (ts ++ right :: tail) ++ rest) 0 = some .openBracket :=
        congrArg some opens
      rw [here]
      refine ⟨rfl, fun _ => ⟨right :: (tail ++ rest), ?_, ?_⟩⟩
      · have found := balanced.closing closes (tail ++ rest)
        simpa using found
      · cases first : tail ++ rest with
        | nil => nofun
        | cons token others =>
            obtain ⟨-, -, no_equals⟩ := not_assignment_of_joins joins stops first
            intro equals
            exact no_equals (Option.some.inj equals)

theorem assignment_append {ts rest : List Token} {e : Expr} (h : Derives .conditional ts e)
    (stops : Stops .expression rest) :
    assignment inner (ts ++ rest) = conditional inner (ts ++ rest) := by
  unfold assignment
  split
  case isFalse => rfl
  case isTrue slot_first =>
    obtain ⟨dollar, more, rfl⟩ := List.exists_cons_of_ne_nil h.ne_nil
    obtain ⟨name, tail, rfl, follows⟩ := h.slotFirst nofun rfl (Option.some.inj slot_first.1)
    obtain ⟨no_operator, no_element⟩ := not_assignment_of_followsSlot follows stops
    have third : kindAt? (dollar :: name :: tail ++ rest) 2 = kindAt? (tail ++ rest) 0 := rfl
    rw [third, no_operator]
    simp only
    split
    case isFalse => rfl
    case isTrue opens =>
      obtain ⟨closing, found, no_equals⟩ := no_element opens
      have behind : (dollar :: name :: tail ++ rest).drop 3 = (tail ++ rest).drop 1 := rfl
      rw [behind, found]
      exact if_neg no_equals

theorem assignment_slot {dollar name sign : Token} {operator : AssignmentForm}
    (is_dollar : dollar.kind = .dollar) (slot : name.kind.isSlotName)
    (found : assignmentOperator? sign.kind = some (.ok operator)) (ts : List Token) :
    assignment inner (dollar :: name :: sign :: ts) =
      slotAssignment inner (.ok operator) (dollar :: name :: sign :: ts) := by
  obtain ⟨-, -, named⟩ := slotName_facts slot
  simp [assignment, kindAt?, is_dollar, named, found]

theorem assignment_element {dollar name left equals : Token} {tail : List Token} {right : Token}
    {ts : List Token} (is_dollar : dollar.kind = .dollar) (slot : name.kind.isSlotName)
    (opens : left.kind = .openBracket) (is_equals : equals.kind = .equals)
    (found : closing? 0 ts = some (right :: equals :: tail)) :
    assignment inner (dollar :: name :: left :: ts) =
      elementAssignment inner (right :: equals :: tail) (dollar :: name :: left :: ts) := by
  obtain ⟨-, -, named⟩ := slotName_facts slot
  have no_operator : assignmentOperator? .openBracket = none := rfl
  simp [assignment, kindAt?, is_dollar, named, opens, no_operator, found, is_equals]

theorem accepts_assignment (accepts : ∀ form, Accepts form.level limit (inner form)) :
    Accepts .expression (limit + 1) (assignment inner) := by
  intro ts rest e h nests stops
  have slot_accepts {dollar name sign : Token} {ts : List Token} {e : Expr} (form : AssignmentForm)
      (is_dollar : dollar.kind = .dollar) (slot : name.kind.isSlotName)
      (found : assignmentOperator? sign.kind = some (.ok form)) (derived : Derives .expression ts e)
      (nests : e.nesting < limit) : assignment inner (dollar :: name :: sign :: ts ++ rest) =
        .ok (form.node ("$" ++ name.text) e, rest) := by
    simp only [List.cons_append]
    rw [assignment_slot is_dollar slot found, slotAssignment, target_append is_dollar slot]
    simp only [bind, Except.bind, List.drop_succ_cons, List.drop_zero,
      accepts .expression derived nests stops]
    rfl
  cases h with
  | alone loosens derived =>
      cases loosens
      rw [assignment_append derived stops]
      exact accepts_conditional accepts derived nests (stops.alone rfl)
  | assign is_dollar slot sign_kind derived =>
      exact slot_accepts .plain is_dollar slot (by rw [sign_kind]; rfl) derived
        (Nat.lt_of_succ_lt_succ nests)
  | @update _ _ _ op _ _ is_dollar slot sign_kind derived =>
      exact slot_accepts (.update op) is_dollar slot (by rw [sign_kind]; cases op <;> rfl) derived
        (Nat.lt_of_succ_lt_succ nests)
  | fill is_dollar slot sign_kind derived =>
      exact slot_accepts .fill is_dollar slot (by rw [sign_kind]; rfl) derived
        (Nat.lt_of_succ_lt_succ nests)
  | @assignElement dollar name left right equals ts us index value is_dollar slot opens
      index_derived closes equals_kind value_derived =>
      obtain ⟨index_nests, value_nests⟩ := Nat.max_lt.mp nests
      have ends : Stops .expression (right :: equals :: (us ++ rest)) := .of_closes closes rfl _ _
      have index_read := accepts .expression index_derived (Nat.lt_of_succ_lt_succ index_nests) ends
      have value_read :=
        accepts .expression value_derived (Nat.lt_of_succ_lt_succ value_nests) stops
      have found := index_derived.balanced.closing closes (equals :: (us ++ rest))
      simp only [List.cons_append, List.append_assoc]
      rw [assignment_element is_dollar slot opens equals_kind found, elementAssignment,
        target_append is_dollar slot]
      simp only [bind, Except.bind, List.drop_succ_cons, List.drop_zero, value_read, index_read]
      rfl

theorem accepts_nested (budget : Nat) (form : NestedForm) :
    Accepts form.level budget (nested budget form) := by
  induction budget generalizing form with
  | zero =>
      intro ts rest e derived nests
      exact (Nat.not_lt_zero _ nests).elim
  | succ budget ih =>
      cases form with
      | expression => exact accepts_assignment ih
      | coalesce => exact accepts_coalesce ih
      | unary => exact accepts_unary ih

theorem accepts_statements (fuel : Nat) {ts : List Token} {program : Program}
    (enough : ts.length ≤ fuel) (h : Program.Spelled ts program)
    (nests : program.nesting ≤ maxNesting) : statements fuel ts = .ok program := by
  induction fuel generalizing ts program with
  | zero =>
      obtain rfl := List.length_eq_zero_iff.mp (Nat.le_zero.mp enough)
      rw [h.eq_nil]
      rfl
  | succ fuel ih =>
      cases h with
      | empty => rfl
      | @last ts e derived =>
          obtain ⟨nests, -⟩ := Nat.max_le.mp nests
          obtain ⟨token, more, rfl⟩ := List.exists_cons_of_ne_nil derived.ne_nil
          have read := accepts_nested maxNesting .expression derived nests (.nil _)
          rw [List.append_nil] at read
          rw [statements, expression, read]
          rfl
      | @more ts others semicolon e program derived is_semicolon spelled =>
          obtain ⟨nests, others_nest⟩ := Nat.max_le.mp nests
          obtain ⟨token, more, rfl⟩ := List.exists_cons_of_ne_nil derived.ne_nil
          have ends : Stops .expression (semicolon :: others) := .of_closes is_semicolon rfl _ _
          have read := accepts_nested maxNesting .expression derived nests ends
          have shorter : others.length ≤ fuel := by
            simp only [List.length_append, List.length_cons] at enough
            omega
          rw [List.cons_append] at read ⊢
          rw [statements, expression, read]
          refine (if_pos is_semicolon).trans ?_
          rw [ih shorter spelled others_nest]
          rfl

end Parser

/-- A form is read off by a parser whose limit is high enough for it, so tokens begin with one form
of an expression at most that nothing behind continues. -/
theorem Derives.unique {ts us rest tail : List Token} {e f : Expr}
    (first : Derives .expression ts e) (second : Derives .expression us f)
    (first_ends : Stops .expression rest) (second_ends : Stops .expression tail)
    (same : ts ++ rest = us ++ tail) : e = f ∧ rest = tail := by
  have below : e.nesting < max e.nesting f.nesting + 1 := by omega
  have below' : f.nesting < max e.nesting f.nesting + 1 := by omega
  have first_read := Parser.accepts_nested _ .expression first below first_ends
  have second_read := Parser.accepts_nested _ .expression second below' second_ends
  rw [same, second_read] at first_read
  cases first_read
  exact ⟨rfl, rfl⟩

/-- Tokens spell one program at most, however deep it is nested. -/
theorem Program.Spelled.unique {ts : List Token} {p q : Program} (first : Program.Spelled ts p)
    (second : Program.Spelled ts q) : p = q := by
  have ends {semicolon : Token} {others : List Token} (h : semicolon.kind = .semicolon) :
      Stops .expression (semicolon :: others) := .of_closes h rfl _ _
  induction first generalizing q with
  | empty => exact second.eq_nil.symm
  | @last ts e derived =>
      generalize same : ts = us at second
      cases second with
      | empty => exact (derived.ne_nil same).elim
      | last derived' =>
          obtain ⟨rfl, -⟩ := derived.unique derived' (.nil _) (.nil _) (congrArg (· ++ []) same)
          rfl
      | more derived' is_semicolon =>
          obtain ⟨-, cut⟩ := derived.unique derived' (.nil _) (ends is_semicolon)
            ((List.append_nil _).trans same)
          cases cut
  | @more ts others semicolon e program derived is_semicolon spelled ih =>
      generalize same : ts ++ semicolon :: others = us at second
      cases second with
      | empty => simp at same
      | last derived' =>
          obtain ⟨-, cut⟩ := derived.unique derived' (ends is_semicolon) (.nil _)
            (same.trans (List.append_nil _).symm)
          cases cut
      | more derived' is_semicolon' spelled' =>
          obtain ⟨rfl, cut⟩ := derived.unique derived' (ends is_semicolon) (ends is_semicolon') same
          obtain ⟨-, rfl⟩ := List.cons.inj cut
          rw [ih spelled']

end SlotScript
