import SlotScript.Cache.Compiled
import SlotScript.Cache.Tokens

/-!
# The caches of a process

A process keeps one cache of tokens and one of compiled texts, both empty at first. Whatever is lexed
or compiled goes through them: a text that has to be compiled takes its tokens from the token cache.
-/

namespace SlotScript

structure Caches where
  tokens : TokenCache := {}
  codes : CompilerCache := .empty

/-- What is asked of a process. -/
inductive Call where
  | lex (text : String)
  | compile (mode : AssignMode) (text : String)
  /-- Compiled texts are forgotten, tokens are not. -/
  | clear

inductive Answer where
  | tokens (result : Except CompileError (List Token))
  | code (result : Except CompileError Code)
  | done

namespace Caches

def lex (caches : Caches) (text : String) : Except CompileError (List Token) × Caches :=
  match caches.tokens.tokenize text with
  | .ok (shared, tokens) => (.ok (shared.map (·.token)), { caches with tokens })
  | .error e => (.error e, caches)

def compile (caches : Caches) (mode : AssignMode) (text : String) :
    Except CompileError Code × Caches :=
  match caches.codes.lookup? mode text with
  | some code => (.ok code, caches)
  | none =>
    match caches.lex text with
    | (.error e, caches) => (.error e, caches)
    | (.ok tokens, caches) =>
      match Code.ofTokens mode tokens with
      | .ok code => (.ok code, { caches with codes := caches.codes.store mode text code })
      | .error e => (.error e, caches)

/-- The answer to a call, and the caches after it. -/
def serve (caches : Caches) : Call → Answer × Caches
  | .lex text => let (result, caches) := caches.lex text; (.tokens result, caches)
  | .compile mode text => let (result, caches) := caches.compile mode text; (.code result, caches)
  | .clear => (.done, { caches with codes := .empty })

/-- The answers to calls made one after another. -/
def serveAll (caches : Caches) : List Call → List Answer
  | [] => []
  | call :: rest => (caches.serve call).1 :: (caches.serve call).2.serveAll rest

end Caches

end SlotScript
