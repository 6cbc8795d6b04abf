import SlotScript.Cache.Slots
import SlotScript.Operator.Comparison
import SlotScript.Token.Lexer
import SlotScript.Value.Text

/-!
# Shared tokens

Equal tokens are shared where that is cheap: tokens of fixed text exist once, while identifiers and
literals come from two small caches. Each shared token has an identity, so that it can be told
whether two tokens are the same one.
-/

namespace SlotScript

inductive TokenIdentity where
  | fixed (kind : TokenKind)
  /-- The identifiers and literals are numbered in the order in which they are made. -/
  | made (serial : Nat)
deriving DecidableEq

structure SharedToken where
  token : Token
  identity : TokenIdentity

structure TokenCache where
  identifiers : SlotCache 256 SharedToken := .empty
  literals : SlotCache 1024 SharedToken := .empty
  made : Nat := 0

namespace Token

/-- Whether two literals are interchangeable. -/
def sameLiteral (a b : Token) : Bool :=
  a.kind = b.kind && a.text = b.text && a.value.identical b.value

/-- What tells string literals from numeric ones in a hash. -/
def literalSalt (token : Token) : Fingerprint :=
  if token.kind = .stringLiteral then 1 else 2

def literalHash (token : Token) : Fingerprint :=
  .ofText token.text ^^^ token.value.fingerprint ^^^ token.literalSalt

end Token

namespace TokenCache

/-- The shared token for a token just read, and the cache after that. -/
def share (cache : TokenCache) (token : Token) : SharedToken × TokenCache :=
  let fresh : SharedToken := ⟨token, .made cache.made⟩
  match token.kind with
  | .identifier =>
    let hash := Fingerprint.ofText token.text
    match cache.identifiers.find? hash fun held => held.token.text = token.text with
    | some held => (held, cache)
    | none => (fresh, { cache with
        identifiers := cache.identifiers.insert hash fresh, made := cache.made + 1 })
  | .stringLiteral | .numericLiteral =>
    let hash := token.literalHash
    match cache.literals.find? hash fun held => held.token.sameLiteral token with
    | some held => (held, cache)
    | none => (fresh, { cache with
        literals := cache.literals.insert hash fresh, made := cache.made + 1 })
  | kind => (⟨token, .fixed kind⟩, cache)

/-- The shared tokens of a list of tokens, in order. -/
def shareAll (cache : TokenCache) : List Token → List SharedToken × TokenCache
  | [] => ([], cache)
  | token :: rest =>
    let (shared, cache) := cache.share token
    let (more, cache) := cache.shareAll rest
    (shared :: more, cache)

/-- All tokens of a text, shared through the cache. -/
def tokenize (cache : TokenCache) (text : String) :
    Except CompileError (List SharedToken × TokenCache) :=
  cache.shareAll <$> Lexer.tokenize text

/-- Whether the cache still holds this very token. -/
def holds (cache : TokenCache) (shared : SharedToken) : Bool :=
  let isSame (held : SharedToken) : Bool := held.identity = shared.identity
  match shared.token.kind with
  | .identifier => (cache.identifiers.find? (.ofText shared.token.text) isSame).isSome
  | .stringLiteral | .numericLiteral =>
    (cache.literals.find? shared.token.literalHash isSame).isSome
  | _ => true

end TokenCache

end SlotScript
