import GlyphStack.Lexer

/-!
# What a lexer reports

Reading a text is reported glyph by glyph: every digit and operator as it is
read, and every instruction as it is built.  The characters of strings and
comments are passed in silence.
-/

namespace GlyphStack
namespace Lexer

/-- An entry of the lexer. -/
def entry (level : Log.Level) (text : String) : Log.Entry :=
  { reporter := .lexer, level := level, text := text }

namespace State

/-- What is reported when the number being read is turned into a push. -/
def flushReport (state : State) : List Log.Entry :=
  match state.pending with
  | none => []
  | some literal => [entry .info ("building push " ++ toString literal.value.toInt)]

/-- What is reported when a glyph is read. -/
def readReport (state : State) (glyph : Glyph) : List Log.Entry :=
  match state.mode, glyph with
  | .normal, .char c =>
    if Text.isSpace c then
      state.flushReport
    else if c = quoteMark ∨ c = commentMark then
      []
    else if (digit? c).isSome then
      [entry .debug ("reading digit " ++ Text.quotedChar c)]
    else
      match Kind.ofSymbol? c with
      | none => []
      | some kind =>
        entry .debug ("reading symbol " ++ Text.quotedChar c) ::
          state.flushReport ++ [entry .info ("building " ++ kind.name)]
  | _, _ => []

/-- What is reported while glyphs are read to the end of the text. -/
def scanReport (width : Width) (state : State) : List Glyph -> List Log.Entry
  | [] => state.flushReport
  | glyph :: rest =>
    state.readReport glyph ++
      match state.read width glyph with
      | .ok after => after.scanReport width rest
      | .error _ => []

end State

/-- What is reported when the whole text is read. -/
def report (lexer : Lexer) : List Log.Entry :=
  entry .info "tokenizing program" ::
    lexer.state.restart.scanReport lexer.width lexer.source

end Lexer
end GlyphStack
