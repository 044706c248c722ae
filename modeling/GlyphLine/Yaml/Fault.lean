/-!
# What can be wrong with a YAML text

The faults of the text itself, of its structure, and of its data.
-/

namespace GlyphLine
namespace Yaml

/-- What is wrong with a text or with its data. -/
inductive Fault where
  | forbiddenCharacter
  | badDirective
  | badAnchor
  | badTag
  | badEscape
  | badHeader
  | tabInIndentation
  | unendedQuote
  | unexpectedColon
  | noToken
  | noColon
  | misplaced
  | noNode
  | noEntry
  | noDocumentStart
  | unknownHandle
  | unknownAnchor
  | severalDocuments
  | tooDeep
  | tooManyAliases
  | wrongType
  | duplicateField (name : String)
  deriving DecidableEq, Repr

/-- The message of a fault. -/
def Fault.message : Fault → String
  | .forbiddenCharacter => "control characters are not allowed"
  | .badDirective => "did not find a directive of the expected form"
  | .badAnchor => "did not find the name of an anchor or alias"
  | .badTag => "did not find a tag of the expected form"
  | .badEscape => "found an unknown escape"
  | .badHeader => "did not find the header of a block scalar"
  | .tabInIndentation => "found a tab character in the indentation"
  | .unendedQuote => "found the end of a document in a quoted scalar"
  | .unexpectedColon => "found unexpected ':'"
  | .noToken => "found character that cannot start any token"
  | .noColon => "could not find expected ':'"
  | .misplaced => "entries, keys and values are not allowed in this context"
  | .noNode => "did not find expected node content"
  | .noEntry => "did not find the next entry or the end of a collection"
  | .noDocumentStart => "did not find expected <document start>"
  | .unknownHandle => "found undefined tag handle"
  | .unknownAnchor => "unknown anchor"
  | .severalDocuments => "found more than one document"
  | .tooDeep => "recursion limit exceeded"
  | .tooManyAliases => "repetition limit exceeded"
  | .wrongType => "found a value of another type"
  | .duplicateField name => "duplicate field " ++ name

end Yaml
end GlyphLine
