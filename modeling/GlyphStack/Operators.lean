import GlyphStack.Kind

/-!
# Operators

A source text is read by a table from characters to kinds.  The table is not derived
from the symbols that the kinds have; that both agree is a theorem: a character
stands for a kind exactly if it is the symbol of the kind.
-/

namespace GlyphStack
namespace Kind

/-- The characters that stand for instructions, with the kinds that they build. -/
def operators : List (Char × Kind) :=
  [ ('+', .add), ('-', .subtract), ('*', .multiply), ('/', .divide), ('%', .modulo),
    ('.', .pop), (',', .nonOp), (':', .peek), ('e', .clear), ('c', .chr), ('!', .not),
    ('~', .negate), ('&', .and), ('|', .or), ('s', .toText), ('?', .copy), ('(', .ifOpen),
    (')', .endif), ('\x7b', .elseOpen), ('=', .equality), ('>', .greaterThan),
    ('<', .lessThan), ('r', .mark), ('j', .jump), ('q', .jumpIf), ('$', .save),
    ('^', .load) ]

/-- The kind that a character of a source text stands for. -/
def ofSymbol? (symbol : Char) : Option Kind :=
  operators.lookup symbol

/-- The characters of the table are the symbols of their kinds. -/
theorem symbol?_of_mem_operators :
    ∀ operator ∈ operators, operator.2.symbol? = some operator.1 := by
  decide

/-- Every kind with a symbol is the kind that its symbol stands for. -/
theorem ofSymbol?_of_symbol?_eq_some
    {kind : Kind}
    {symbol : Char}
    (written : kind.symbol? = some symbol) :
    ofSymbol? symbol = some kind := by
  cases kind <;> simp only [symbol?, Option.some.injEq, reduceCtorEq] at written <;>
    subst written <;> rfl

theorem mem_operators_of_ofSymbol?_eq_some
    {symbol : Char}
    {kind : Kind}
    (found : ofSymbol? symbol = some kind) :
    (symbol, kind) ∈ operators := by
  obtain ⟨earlier, later, operators_eq, -⟩ := List.lookup_eq_some_iff.mp found
  simp [operators_eq]

/-- The kind that a character stands for has that character as its symbol. -/
theorem symbol?_of_ofSymbol?_eq_some
    {symbol : Char}
    {kind : Kind}
    (found : ofSymbol? symbol = some kind) :
    kind.symbol? = some symbol :=
  symbol?_of_mem_operators _ (mem_operators_of_ofSymbol?_eq_some found)

/-- The table and the symbols of the kinds agree. -/
theorem ofSymbol?_eq_some_iff
    {symbol : Char}
    {kind : Kind} :
    ofSymbol? symbol = some kind ↔ kind.symbol? = some symbol :=
  ⟨symbol?_of_ofSymbol?_eq_some, ofSymbol?_of_symbol?_eq_some⟩

end Kind
end GlyphStack
