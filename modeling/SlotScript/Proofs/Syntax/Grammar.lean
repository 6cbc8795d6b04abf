import SlotScript.Syntax.Parser

/-! # The grammar

What a list of tokens has to look like to be a program, and which tree it spells. A derivation knows
nothing of parsing: it has no order, no lookahead and no limit. An operator belongs to one level, and
the operands of a level are the forms of the next tighter one. A tree keeps parentheses and chains as
they are written, so it records how it is derived.

```text
program     := (expression (; expression)* ;?)?
expression  := $k (= | += | -= | *= | /= | ??=) expression
             | $k[expression] = expression
             | conditional
conditional := coalesce (? expression : expression)?
coalesce    := or (?? coalesce)?
or          := and (|| and)*
and         := bitOr (&& bitOr)*
bitOr       := bitXor (| bitXor)*
bitXor      := bitAnd (^ bitAnd)*
bitAnd      := equality (& equality)*
equality    := relational ((== | !=) relational)*
relational  := additive ((< | <= | > | >=) additive)*
additive    := term ((+ | -) term)*
term        := unary ((* | /) unary)*
unary       := (! | - | + | ~) unary | (++ | --) $k | primary
primary     := literal | ( expression ) | $parameter | $self
             | $k | $k++ | $k-- | $k[expression] | identifier
```

Here `$k` is a dollar sign and a name other than `parameter` and `self`.
-/

namespace SlotScript

def UnaryOperator.kind : UnaryOperator → TokenKind
  | not => .bang
  | minus => .minus
  | complement => .tilde
  | plus => .plus

def BinaryOperator.kind : BinaryOperator → TokenKind
  | add => .plus
  | subtract => .minus
  | multiply => .asterisk
  | divide => .slash
  | less => .less
  | lessOrEqual => .lessEquals
  | greater => .greater
  | greaterOrEqual => .greaterEquals
  | equal => .equalEqual
  | notEqual => .bangEquals
  | bitwiseAnd => .ampersand
  | bitwiseXor => .caret
  | bitwiseOr => .bar

def Connective.kind : Connective → TokenKind
  | and => .ampersandAmpersand
  | or => .barBar

/-- The operator that assigns the result of an operation on the slot. -/
def Arithmetic.assignKind : Arithmetic → TokenKind
  | add => .plusEquals
  | subtract => .minusEquals
  | multiply => .asteriskEquals
  | divide => .slashEquals

def Counting.kind : Counting → TokenKind
  | preIncrement | postIncrement => .plusPlus
  | preDecrement | postDecrement => .minusMinus

/-- Whether the sign stands in front of the slot. -/
def Counting.isPrefix : Counting → Bool
  | preIncrement | preDecrement => true
  | postIncrement | postDecrement => false

/-- The value of a token that stands for one by itself. -/
def Token.constant? (token : Token) : Option Value :=
  match token.kind with
  | .stringLiteral | .numericLiteral | .identifier => some token.value
  | .nullWord => some .null
  | .trueWord => some (.bool true)
  | .falseWord => some (.bool false)
  | _ => none

/-- The kinds of names a slot may have. Two words are reserved. -/
def TokenKind.isSlotName (kind : TokenKind) : Bool :=
  kind.isName && kind != .parameterWord && kind != .selfWord

/-- The levels of binary operators, tightest first. -/
inductive BinaryLevel where
  | term | additive | relational | equality | bitAnd | bitXor | bitOr

/-- The nonterminals of expressions, tightest first. -/
inductive Level where
  | primary
  | unary
  | binary (level : BinaryLevel)
  | chain (op : Connective)
  | coalesce
  | conditional
  | expression

def BinaryOperator.level : BinaryOperator → BinaryLevel
  | multiply | divide => .term
  | add | subtract => .additive
  | less | lessOrEqual | greater | greaterOrEqual => .relational
  | equal | notEqual => .equality
  | bitwiseAnd => .bitAnd
  | bitwiseXor => .bitXor
  | bitwiseOr => .bitOr

/-- The level of the operands of binary operators. -/
def BinaryLevel.operand : BinaryLevel → Level
  | term => .unary
  | additive => .binary term
  | relational => .binary additive
  | equality => .binary relational
  | bitAnd => .binary equality
  | bitXor => .binary bitAnd
  | bitOr => .binary bitXor

/-- The level of the operands of a chain. -/
def Connective.operand : Connective → Level
  | and => .binary .bitOr
  | or => .chain .and

/-- The tighter level that a form may consist of alone. A binary level without an operator is its
first operand with nothing behind it. -/
def Level.alone? : Level → Option Level
  | unary => some primary
  | chain op => some op.operand
  | coalesce => some (chain .or)
  | conditional => some coalesce
  | expression => some conditional
  | primary | binary _ => none

mutual

/-- A form of some level spells a tree. -/
inductive Derives : Level → List Token → Expr → Prop where
  | alone {outer inner : Level} {ts : List Token} {e : Expr} : outer.alone? = some inner →
      Derives inner ts e → Derives outer ts e
  | constant {token : Token} {v : Value} : token.constant? = some v →
      Derives .primary [token] (.literal v)
  | group {left right : Token} {ts : List Token} {e : Expr} : left.kind = .openParen →
      Derives .expression ts e → right.kind = .closeParen →
      Derives .primary (left :: (ts ++ [right])) (.group e)
  | parameter {dollar name : Token} : dollar.kind = .dollar → name.kind = .parameterWord →
      Derives .primary [dollar, name] .parameter
  | self {dollar name : Token} : dollar.kind = .dollar → name.kind = .selfWord →
      Derives .primary [dollar, name] .self
  | slot {dollar name : Token} : dollar.kind = .dollar → name.kind.isSlotName →
      Derives .primary [dollar, name] (.slot ("$" ++ name.text))
  | countAfter {dollar name sign : Token} {form : Counting} : dollar.kind = .dollar →
      name.kind.isSlotName → form.isPrefix = false → sign.kind = form.kind →
      Derives .primary [dollar, name, sign] (.count form ("$" ++ name.text))
  | element {dollar name left right : Token} {ts : List Token} {index : Expr} :
      dollar.kind = .dollar → name.kind.isSlotName → left.kind = .openBracket →
      Derives .expression ts index → right.kind = .closeBracket →
      Derives .primary (dollar :: name :: left :: (ts ++ [right]))
        (.element ("$" ++ name.text) index)
  | unary {sign : Token} {ts : List Token} {op : UnaryOperator} {e : Expr} : sign.kind = op.kind →
      Derives .unary ts e → Derives .unary (sign :: ts) (.unary op e)
  | countBefore {dollar name sign : Token} {form : Counting} : form.isPrefix = true →
      sign.kind = form.kind → dollar.kind = .dollar → name.kind.isSlotName →
      Derives .unary [sign, dollar, name] (.count form ("$" ++ name.text))
  | binary {level : BinaryLevel} {ts others : List Token} {first e : Expr} :
      Derives level.operand ts first → Continues level first others e →
      Derives (.binary level) (ts ++ others) e
  | chain {op : Connective} {sign : Token} {ts others : List Token} {first : Expr}
      {rest : Operands} : Derives op.operand ts first → sign.kind = op.kind →
      Chains op others rest → Derives (.chain op) (ts ++ sign :: others) (.chain op first rest)
  | coalesce {sign : Token} {ts others : List Token} {left right : Expr} :
      Derives (.chain .or) ts left → sign.kind = .questionQuestion →
      Derives .coalesce others right →
      Derives .coalesce (ts ++ sign :: others) (.coalesce left right)
  | conditional {question colon : Token} {ts us vs : List Token} {condition yes no : Expr} :
      Derives .coalesce ts condition → question.kind = .question → Derives .expression us yes →
      colon.kind = .colon → Derives .expression vs no →
      Derives .conditional (ts ++ question :: (us ++ colon :: vs)) (.conditional condition yes no)
  | assign {dollar name sign : Token} {ts : List Token} {e : Expr} : dollar.kind = .dollar →
      name.kind.isSlotName → sign.kind = .equals → Derives .expression ts e →
      Derives .expression (dollar :: name :: sign :: ts) (.assign ("$" ++ name.text) e)
  | update {dollar name sign : Token} {op : Arithmetic} {ts : List Token} {e : Expr} :
      dollar.kind = .dollar → name.kind.isSlotName → sign.kind = op.assignKind →
      Derives .expression ts e →
      Derives .expression (dollar :: name :: sign :: ts) (.update ("$" ++ name.text) op e)
  | fill {dollar name sign : Token} {ts : List Token} {e : Expr} : dollar.kind = .dollar →
      name.kind.isSlotName → sign.kind = .questionQuestionEquals → Derives .expression ts e →
      Derives .expression (dollar :: name :: sign :: ts) (.fill ("$" ++ name.text) e)
  | assignElement {dollar name left right equals : Token} {ts us : List Token}
      {index value : Expr} : dollar.kind = .dollar → name.kind.isSlotName →
      left.kind = .openBracket → Derives .expression ts index → right.kind = .closeBracket →
      equals.kind = .equals → Derives .expression us value →
      Derives .expression (dollar :: name :: left :: (ts ++ right :: equals :: us))
        (.assignElement ("$" ++ name.text) index value)

/-- Any number of operators of a level with their right operands continue a tree to another one. The
operators associate to the left. -/
inductive Continues : BinaryLevel → Expr → List Token → Expr → Prop where
  | done (level : BinaryLevel) (e : Expr) : Continues level e [] e
  | more {op : BinaryOperator} {sign : Token} {ts others : List Token} {left right e : Expr} :
      sign.kind = op.kind → Derives op.level.operand ts right →
      Continues op.level (.binary op left right) others e →
      Continues op.level left (sign :: (ts ++ others)) e

/-- The operands of a chain behind its first operator. -/
inductive Chains : Connective → List Token → Operands → Prop where
  | last {op : Connective} {ts : List Token} {e : Expr} : Derives op.operand ts e →
      Chains op ts (.last e)
  | next {op : Connective} {sign : Token} {ts others : List Token} {e : Expr} {rest : Operands} :
      Derives op.operand ts e → sign.kind = op.kind → Chains op others rest →
      Chains op (ts ++ sign :: others) (.more e rest)

end

/-- Statements with semicolons between them, and perhaps one behind the last. -/
inductive Program.Spelled : List Token → Program → Prop where
  | empty : Spelled [] []
  | last {ts : List Token} {e : Expr} : Derives .expression ts e → Spelled ts [e]
  | more {ts others : List Token} {semicolon : Token} {e : Expr} {program : Program} :
      Derives .expression ts e → semicolon.kind = .semicolon → Spelled others program →
      Spelled (ts ++ semicolon :: others) (e :: program)

mutual

/-- How many levels are nested in a tree: an expression, the operand of a unary operator and the
right side of `??` count one each. -/
def Expr.nesting : Expr → Nat
  | .literal _ | .parameter | .self | .slot _ | .count _ _ => 0
  | .element _ index => index.nesting + 1
  | .group e => e.nesting + 1
  | .unary _ e => e.nesting + 1
  | .binary _ left right => max left.nesting right.nesting
  | .chain _ first rest => max first.nesting rest.nesting
  | .coalesce left right => max left.nesting (right.nesting + 1)
  | .conditional condition yes no =>
    max condition.nesting (max (yes.nesting + 1) (no.nesting + 1))
  | .assign _ e | .update _ _ e | .fill _ e => e.nesting + 1
  | .assignElement _ index value => max (index.nesting + 1) (value.nesting + 1)

def Operands.nesting : Operands → Nat
  | .last e => e.nesting
  | .more e rest => max e.nesting rest.nesting

end

/-- The levels nested in a program. Each statement is an expression and counts one itself. -/
def Program.nesting (program : Program) : Nat :=
  program.foldr (fun e deepest => max (e.nesting + 1) deepest) 0

def TokenKind.isBracket (kind : TokenKind) : Bool := kind = .openBracket || kind = .closeBracket

theorem TokenKind.not_bracket_of_slotName {kind : TokenKind} (h : kind.isSlotName) :
    kind.isBracket = false := by
  cases kind <;> first | rfl | cases h

theorem Token.not_bracket_of_constant {token : Token} {v : Value} (h : token.constant? = some v) :
    token.kind.isBracket = false := by
  unfold constant? at h
  cases kind : token.kind <;> rw [kind] at h <;> first | rfl | cases h

theorem UnaryOperator.kind_not_bracket (op : UnaryOperator) : op.kind.isBracket = false := by
  cases op <;> rfl

theorem BinaryOperator.kind_not_bracket (op : BinaryOperator) : op.kind.isBracket = false := by
  cases op <;> rfl

theorem Connective.kind_not_bracket (op : Connective) : op.kind.isBracket = false := by
  cases op <;> rfl

theorem Arithmetic.assignKind_not_bracket (op : Arithmetic) : op.assignKind.isBracket = false := by
  cases op <;> rfl

theorem Counting.kind_not_bracket (form : Counting) : form.kind.isBracket = false := by
  cases form <;> rfl

open SlotScript.Parser

/-- Behind the tokens, the same bracket is searched for as before them. -/
def Balanced (ts : List Token) : Prop :=
  ∀ depth rest, closing? depth (ts ++ rest) = closing? depth rest

namespace Balanced

theorem nil : Balanced [] := fun _ _ => rfl

theorem append {ts us : List Token} (first : Balanced ts) (second : Balanced us) :
    Balanced (ts ++ us) := by
  intro depth rest
  rw [List.append_assoc, first, second]

theorem cons {token : Token} {ts : List Token} (other : token.kind.isBracket = false)
    (h : Balanced ts) : Balanced (token :: ts) := by
  intro depth rest
  obtain ⟨opens, closes⟩ : token.kind ≠ .openBracket ∧ token.kind ≠ .closeBracket := by
    simpa [TokenKind.isBracket] using other
  simp only [List.cons_append, closing?, opens, closes, if_false]
  exact h depth rest

theorem of_kind {token : Token} {kind : TokenKind} {ts : List Token} (same : token.kind = kind)
    (other : kind.isBracket = false) (h : Balanced ts) : Balanced (token :: ts) :=
  h.cons (by rw [same, other])

/-- The bracket that closes an open one behind some tokens. -/
theorem closing {ts : List Token} (h : Balanced ts) {right : Token}
    (closes : right.kind = .closeBracket) (rest : List Token) :
    closing? 0 (ts ++ right :: rest) = some (right :: rest) := by
  rw [h]
  simp [closing?, closes]

theorem brackets {left right : Token} {ts us : List Token} (opens : left.kind = .openBracket)
    (first : Balanced ts) (closes : right.kind = .closeBracket) (second : Balanced us) :
    Balanced (left :: (ts ++ right :: us)) := by
  intro depth rest
  simp only [List.cons_append, List.append_assoc, closing?, opens, if_true]
  rw [first]
  simp only [closing?, closes, if_true, reduceCtorEq, if_false]
  exact second depth rest

end Balanced

theorem Derives.balanced {level : Level} {ts : List Token} {e : Expr} (h : Derives level ts e) :
    Balanced ts := by
  induction h using Derives.rec (motive_2 := fun _ _ ts _ _ => Balanced ts)
    (motive_3 := fun _ ts _ _ => Balanced ts) with
  | alone _ _ ih => exact ih
  | constant h => exact Balanced.nil.cons (Token.not_bracket_of_constant h)
  | group left _ right ih => exact (ih.append (Balanced.nil.of_kind right rfl)).of_kind left rfl
  | parameter dollar name | self dollar name =>
      exact (Balanced.nil.of_kind name rfl).of_kind dollar rfl
  | slot dollar name =>
      exact (Balanced.nil.cons (TokenKind.not_bracket_of_slotName name)).of_kind dollar rfl
  | countAfter dollar name _ sign =>
      have last := Balanced.nil.of_kind sign (Counting.kind_not_bracket _)
      exact (last.cons (TokenKind.not_bracket_of_slotName name)).of_kind dollar rfl
  | element dollar name left _ right ih =>
      have index := Balanced.brackets left ih right .nil
      exact (index.cons (TokenKind.not_bracket_of_slotName name)).of_kind dollar rfl
  | unary sign _ ih => exact ih.of_kind sign (UnaryOperator.kind_not_bracket _)
  | countBefore _ sign dollar name =>
      have slot := Balanced.nil.cons (TokenKind.not_bracket_of_slotName name)
      exact (slot.of_kind dollar rfl).of_kind sign (Counting.kind_not_bracket _)
  | binary _ _ first others => exact first.append others
  | chain _ sign _ first others =>
      exact first.append (others.of_kind sign (Connective.kind_not_bracket _))
  | coalesce _ sign _ left right => exact left.append (right.of_kind sign rfl)
  | conditional _ question _ colon _ condition yes no =>
      exact condition.append ((yes.append (no.of_kind colon rfl)).of_kind question rfl)
  | assign dollar name sign _ ih =>
      exact ((ih.of_kind sign rfl).cons (TokenKind.not_bracket_of_slotName name)).of_kind dollar rfl
  | update dollar name sign _ ih =>
      have assigned := ih.of_kind sign (Arithmetic.assignKind_not_bracket _)
      exact (assigned.cons (TokenKind.not_bracket_of_slotName name)).of_kind dollar rfl
  | fill dollar name sign _ ih =>
      exact ((ih.of_kind sign rfl).cons (TokenKind.not_bracket_of_slotName name)).of_kind dollar rfl
  | assignElement dollar name left _ right equals _ index value =>
      have target := Balanced.brackets left index right (value.of_kind equals rfl)
      exact (target.cons (TokenKind.not_bracket_of_slotName name)).of_kind dollar rfl
  | done => exact .nil
  | more sign _ _ right others =>
      exact (right.append others).of_kind sign (BinaryOperator.kind_not_bracket _)
  | last _ ih => exact ih
  | next _ sign _ first others =>
      exact first.append (others.of_kind sign (Connective.kind_not_bracket _))

theorem Derives.ne_nil {level : Level} {ts : List Token} {e : Expr} (h : Derives level ts e) :
    ts ≠ [] := by
  induction h using Derives.rec (motive_2 := fun _ _ _ _ _ => True)
    (motive_3 := fun _ _ _ _ => True) with
  | alone _ _ ih => exact ih
  | binary _ _ first => simp [first]
  | done | more | last | next => trivial
  | _ => simp

theorem Program.Spelled.eq_nil {program : Program} (h : Program.Spelled [] program) :
    program = [] := by
  generalize none : ([] : List Token) = ts at h
  cases h with
  | empty => rfl
  | last derived => exact (derived.ne_nil none.symm).elim
  | more => simp at none

end SlotScript
