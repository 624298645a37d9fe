import Flame.Run.Machine

/-!
A host with two sinks for text.

What a host function prints may go to the same place as what is written to a sink, so the host and
its sinks act on one state; sinks that are nobody else's act on parts of it of their own. A sink can
refuse a text, or to let go of what it holds back, at any time: how it answers is up to the state.
-/

namespace Flame

variable {σ : Type}

/-- Where text is written to. Whatever is refused, some of the text may have been taken. -/
structure Sink (σ : Type) where
  /-- Takes a text, or gives the reason why not. -/
  write : String → σ → Except String Unit × σ
  /-- Lets go of what was held back, or gives the reason why not. -/
  flush : σ → Except String Unit × σ

/-- A sink that takes a text as a whole or not at all, and holds nothing back. -/
def Sink.ofWrite (write : String → σ → Except String σ) : Sink σ where
  write text s :=
    match write text s with
    | .ok s' => (.ok (), s')
    | .error e => (.error e, s)
  flush s := (.ok (), s)

/-- A host, with a sink for its output and one for errors. -/
structure Terminal (σ : Type) where
  host : Host σ
  out : Sink σ
  err : Sink σ

end Flame
