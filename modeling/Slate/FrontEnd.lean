import Slate.Grammar.Program
import Slate.Token.Cursor
import Slate.Typing.Program

/-!
# The front end

From a source text to a program that both back ends accept: the text is cut
into tokens, the tokens are read as a program, and the program is checked.
The first step that fails says why.
-/

namespace Slate

/-- The checked program that a source text is. -/
def frontEnd (source : String) (file : Option String) : Except Diagnostic Program := do
  let program ← Program.parse (tokensOf source) file
  program.check

end Slate
