import SlotScript.Cache.Calls
import SlotScript.Proofs.Token.Spelling

/-!
# Caches never change an answer

A cache may hold anything that was put into it and not yet overwritten, so what it can answer is
bounded by a property of every entry. In the token cache each entry is the token its own kind and
text are read as; the lookup compares both, hence a hit is the very token that was looked up, even
though values are compared by an equality that confuses the zeros of either sign. In the cache of
compiled texts each entry is what its text compiles to.
-/

namespace SlotScript

namespace SlotCache

variable {slots : Nat} {α : Type} {P : α → Prop} {cache : SlotCache slots α}

/-- Every entry has the property. -/
def All (P : α → Prop) (cache : SlotCache slots α) : Prop :=
  ∀ slot a, cache.held.find? slot = some a → P a

theorem all_empty : (empty : SlotCache slots α).All P := nofun

theorem All.insert (all : cache.All P) (hash : Fingerprint) {a : α} (ha : P a) :
    (cache.insert hash a).All P := by
  intro slot b found
  obtain ⟨-, rfl⟩ | ⟨-, before⟩ := Table.find?_of_insert found
  · exact ha
  · exact all slot b before

/-- What a lookup finds has the property and was accepted. -/
theorem All.of_find? (all : cache.All P) {hash : Fingerprint} {accepts : α → Bool} {a : α}
    (found : cache.find? hash accepts = some a) : P a ∧ accepts a := by
  obtain ⟨held, accepted⟩ := Option.filter_eq_some_iff.mp found
  exact ⟨all _ a held, accepted⟩

end SlotCache

namespace TokenCache

/-- Identifiers and literals are kept apart, each one as it is read from its own text. -/
structure Sound (cache : TokenCache) : Prop where
  identifiers : cache.identifiers.All fun held =>
    held.token.kind = .identifier ∧ held.token.Faithful
  literals : cache.literals.All fun held => held.token.Faithful

theorem sound_empty : ({} : TokenCache).Sound := ⟨SlotCache.all_empty, SlotCache.all_empty⟩

variable {cache : TokenCache} {token : Token}

/-- Literals that pass for the same agree in kind and text, so that they are the same whatever the
equality of their values says. -/
theorem same_of_sameLiteral {held : Token} (heldFaithful : held.Faithful)
    (faithful : token.Faithful) (accepted : held.sameLiteral token) : held = token := by
  simp only [Token.sameLiteral, Bool.and_eq_true, decide_eq_true_eq] at accepted
  exact heldFaithful.eq faithful accepted.1.1 accepted.1.2

/-- A shared token is the token itself, and the cache stays sound. -/
theorem Sound.share (sound : cache.Sound) (faithful : token.Faithful) :
    (cache.share token).1.token = token ∧ (cache.share token).2.Sound := by
  fun_cases TokenCache.share cache token with
  | case1 kind _ held hit =>
    obtain ⟨⟨heldKind, heldFaithful⟩, sameText⟩ := sound.identifiers.of_find? hit
    exact ⟨heldFaithful.eq faithful (heldKind.trans kind.symm) (of_decide_eq_true sameText), sound⟩
  | case2 _ kind =>
    exact ⟨rfl, sound.identifiers.insert _ ⟨kind, faithful⟩, sound.literals⟩
  | case3 _ _ held hit | case5 _ _ held hit =>
    obtain ⟨heldFaithful, accepted⟩ := sound.literals.of_find? hit
    exact ⟨same_of_sameLiteral heldFaithful faithful accepted, sound⟩
  | case4 | case6 => exact ⟨rfl, sound.identifiers, sound.literals.insert _ faithful⟩
  | case7 => exact ⟨rfl, sound⟩

theorem Sound.shareAll (sound : cache.Sound) {tokens : List Token}
    (faithful : ∀ token ∈ tokens, token.Faithful) :
    (cache.shareAll tokens).1.map (·.token) = tokens ∧ (cache.shareAll tokens).2.Sound := by
  induction tokens generalizing cache with
  | nil => exact ⟨rfl, sound⟩
  | cons token rest ih =>
    obtain ⟨same, sound⟩ := sound.share (faithful token (.head _))
    obtain ⟨sameRest, sound⟩ := ih sound fun t later => faithful t (.tail _ later)
    exact ⟨by simp only [TokenCache.shareAll, List.map_cons, same, sameRest], sound⟩

end TokenCache

namespace CompilerCache

/-- Each entry is what its text compiles to. -/
def Sound (cache : CompilerCache) : Prop :=
  cache.All fun entry => Code.compile entry.mode entry.text = .ok entry.code

theorem sound_empty : Sound .empty := SlotCache.all_empty

variable {cache : CompilerCache} {mode : AssignMode} {text : String} {code : Code}

theorem Sound.lookup? (sound : cache.Sound) (hit : cache.lookup? mode text = some code) :
    Code.compile mode text = .ok code := by
  obtain ⟨entry, found, rfl⟩ := Option.map_eq_some_iff.mp hit
  obtain ⟨compiled, accepted⟩ := sound.of_find? found
  simp only [Bool.and_eq_true, decide_eq_true_eq] at accepted
  obtain ⟨⟨-, rfl⟩, rfl⟩ := accepted
  exact compiled

theorem Sound.store (sound : cache.Sound) (compiled : Code.compile mode text = .ok code) :
    (cache.store mode text code).Sound :=
  SlotCache.All.insert sound _ compiled

theorem Sound.compile (sound : cache.Sound) (mode : AssignMode) (text : String) :
    (cache.compile mode text).1 = Code.compile mode text ∧
      (cache.compile mode text).2.Sound := by
  fun_cases CompilerCache.compile cache mode text with
  | case1 code hit => exact ⟨(sound.lookup? hit).symm, sound⟩
  | case2 _ code compiled => exact ⟨compiled.symm, sound.store compiled⟩
  | case3 _ e failed => exact ⟨failed.symm, sound⟩

end CompilerCache

/-- The answer to a call where nothing is remembered. -/
def Call.afresh : Call → Answer
  | .lex text => .tokens (Lexer.tokenize text)
  | .compile mode text => .code (Code.compile mode text)
  | .clear => .done

namespace Caches

structure Sound (caches : Caches) : Prop where
  tokens : caches.tokens.Sound
  codes : caches.codes.Sound

theorem sound_empty : ({} : Caches).Sound := ⟨TokenCache.sound_empty, CompilerCache.sound_empty⟩

variable {caches : Caches}

/-- Lexing through the cache reads the tokens of the text, and leaves the compiled texts alone. -/
theorem Sound.lex (sound : caches.Sound) (text : String) :
    (caches.lex text).1 = Lexer.tokenize text ∧ (caches.lex text).2.codes = caches.codes ∧
      (caches.lex text).2.tokens.Sound := by
  cases read : Lexer.tokenize text with
  | error e => simp [Caches.lex, TokenCache.tokenize, read, sound.tokens]
  | ok tokens =>
    obtain ⟨same, after⟩ := sound.tokens.shareAll (Lexer.tokenize_faithful read)
    simp [Caches.lex, TokenCache.tokenize, read, same, after]

/-- Tokens that come from the token cache compile as tokens just read do. -/
theorem Sound.compile_eq (sound : caches.Sound) (mode : AssignMode) (text : String) :
    (caches.compile mode text).1 = (caches.codes.compile mode text).1 ∧
      (caches.compile mode text).2.codes = (caches.codes.compile mode text).2 ∧
      (caches.compile mode text).2.tokens.Sound := by
  obtain ⟨tokens, codes, after⟩ := sound.lex text
  cases lexed : caches.lex text with | mk result later
  rw [lexed] at tokens codes after
  have whole : Code.compile mode text = result.bind (Code.ofTokens mode) := by
    rw [show result = _ from tokens]
    rfl
  unfold Caches.compile CompilerCache.compile
  cases hit : caches.codes.lookup? mode text with
  | some code => exact ⟨rfl, rfl, sound.tokens⟩
  | none =>
    rw [lexed, whole]
    cases result with
    | error e => exact ⟨rfl, codes, after⟩
    | ok read =>
      simp only [Except.bind]
      cases Code.ofTokens mode read with
      | error e => exact ⟨rfl, codes, after⟩
      | ok code => exact ⟨rfl, congrArg (·.store mode text code) codes, after⟩

theorem Sound.serve (sound : caches.Sound) (call : Call) :
    (caches.serve call).1 = call.afresh ∧ (caches.serve call).2.Sound := by
  cases call with
  | lex text =>
    obtain ⟨tokens, codes, after⟩ := sound.lex text
    exact ⟨congrArg Answer.tokens tokens, after, codes.symm ▸ sound.codes⟩
  | compile mode text =>
    obtain ⟨code, codes, after⟩ := sound.compile_eq mode text
    obtain ⟨afresh, codesSound⟩ := sound.codes.compile mode text
    exact ⟨congrArg Answer.code (code.trans afresh), after, codes.symm ▸ codesSound⟩
  | clear => exact ⟨rfl, sound.tokens, CompilerCache.sound_empty⟩

theorem Sound.serveAll (sound : caches.Sound) (calls : List Call) :
    caches.serveAll calls = calls.map Call.afresh := by
  induction calls generalizing caches with
  | nil => rfl
  | cons call rest ih =>
    obtain ⟨answer, sound⟩ := sound.serve call
    rw [Caches.serveAll, List.map_cons, answer, ih sound]

end Caches

/-- Whatever was lexed, compiled and forgotten before, each text gets the tokens and the code, or
the error, that it gets from empty caches, and that it gets without any. -/
theorem Caches.answers_eq_afresh (calls : List Call) :
    ({} : Caches).serveAll calls = calls.map (fun call => (({} : Caches).serve call).1) ∧
      ({} : Caches).serveAll calls = calls.map Call.afresh := by
  have whole := sound_empty.serveAll calls
  exact ⟨whole.trans (List.map_congr_left fun call _ => (sound_empty.serve call).1.symm), whole⟩

end SlotScript
