import GlyphStack.Editor.Shape

/-!
# The parameters that begin a session

An editor tells what it can do when it begins a session.  Nothing depends on
it, and yet it has to be well formed.
-/

namespace GlyphStack
namespace Editor
namespace Capabilities

/-- Members that are truth values. -/
def flags (names : List String) : List Field :=
  names.map fun name => .every name .flag

/-- A record of truth values. -/
def flagRecord (names : List String) : Shape :=
  .record (flags names)

/-- What can be registered while a session runs. -/
def registration : Shape :=
  flagRecord ["dynamicRegistration"]

/-- What can be registered, and answers with links. -/
def linked : Shape :=
  flagRecord ["dynamicRegistration", "linkSupport"]

/-- A set of known values. -/
def valueSet (items : Shape) : Shape :=
  .record [.every "valueSet" (.list items)]

/-- A set of names of properties. -/
def properties : Shape :=
  .record [.every "properties" (.list .text)]

/-! ## The workspace -/

/-- Edits of a workspace. -/
def workspaceEdit : Shape :=
  .record (flags ["documentChanges", "normalizesLineEndings"] ++
    [ .every "resourceOperations" (.list .text),
      .every "failureHandling" .text,
      .every "changeAnnotationSupport" (flagRecord ["groupsOnLabel"]) ])

/-- The search for symbols of a workspace. -/
def workspaceSymbol : Shape :=
  .record (flags ["dynamicRegistration"] ++
    [ .every "symbolKind" (valueSet .signed),
      .every "tagSupport" (valueSet .signed) ])

/-- Reports about files. -/
def fileOperations : Shape :=
  flagRecord
    ["dynamicRegistration", "didCreate", "willCreate", "didRename", "willRename", "didDelete",
      "willDelete"]

/-- What concerns a workspace. -/
def workspace : Shape :=
  .record (flags ["applyEdit", "workspaceFolders", "configuration"] ++
    [ .every "workspaceEdit" workspaceEdit,
      .every "didChangeConfiguration" registration,
      .every "didChangeWatchedFiles" registration,
      .every "symbol" workspaceSymbol,
      .every "executeCommand" registration,
      .every "semanticTokens" (flagRecord ["refreshSupport"]),
      .every "codeLens" (flagRecord ["refreshSupport"]),
      .every "fileOperations" fileOperations ])

/-! ## Documents -/

/-- Items of a completion. -/
def completionItem : Shape :=
  .record (flags
      ["snippetSupport", "commitCharactersSupport", "deprecatedSupport", "preselectSupport",
        "insertReplaceSupport"] ++
    [ .every "documentationFormat" (.list .text),
      .every "tagSupport" (valueSet .signed),
      .every "resolveSupport" properties,
      .every "insertTextModeSupport" (valueSet .signed) ])

/-- Completions. -/
def completion : Shape :=
  .record (flags ["dynamicRegistration", "contextSupport"] ++
    [ .every "completionItem" completionItem,
      .every "completionItemKind" (valueSet .signed) ])

/-- Descriptions of places. -/
def hover : Shape :=
  .record (flags ["dynamicRegistration"] ++ [.every "contentFormat" (.list .text)])

/-- Descriptions of signatures. -/
def signatureInformation : Shape :=
  .record (flags ["activeParameterSupport"] ++
    [ .every "documentationFormat" (.list .text),
      .every "parameterInformation" (flagRecord ["labelOffsetSupport"]) ])

/-- Help with signatures. -/
def signatureHelp : Shape :=
  .record (flags ["dynamicRegistration", "contextSupport"] ++
    [.every "signatureInformation" signatureInformation])

/-- Symbols of a document. -/
def documentSymbol : Shape :=
  .record (flags ["dynamicRegistration", "hierarchicalDocumentSymbolSupport", "labelSupport"] ++
    [ .every "symbolKind" (valueSet .signed),
      .every "tagSupport" (valueSet .signed) ])

/-- Actions on code. -/
def codeAction : Shape :=
  .record (flags
      ["dynamicRegistration", "isPreferredSupport", "disabledSupport", "dataSupport",
        "honorsChangeAnnotations"] ++
    [ .every "codeActionLiteralSupport" (.record [.every "codeActionKind" (valueSet .text)]),
      .every "resolveSupport" properties ])

/-- New names for symbols. -/
def rename : Shape :=
  .record (flags ["dynamicRegistration", "prepareSupport", "honorsChangeAnnotations"] ++
    [.every "prepareSupportDefaultBehavior" .signed])

/-- Published diagnostics. -/
def publishDiagnostics : Shape :=
  .record (flags
      ["relatedInformation", "versionSupport", "codeDescriptionSupport", "dataSupport"] ++
    [.every "tagSupport" (valueSet .signed)])

/-- Ranges that can be folded. -/
def foldingRange : Shape :=
  .record (flags ["dynamicRegistration", "lineFoldingOnly"] ++ [.every "rangeLimit" .unsigned])

/-- The questions about semantic tokens that an editor asks. -/
def tokenRequests : Shape :=
  .record
    [ .latest "range" (.choice .flag (.record [])),
      .latest "full" (.choice .flag (flagRecord ["delta"])) ]

/-- Semantic tokens. -/
def semanticTokens : Shape :=
  .record (flags
      ["dynamicRegistration", "overlappingTokenSupport", "multilineTokenSupport"] ++
    [ .every "requests" tokenRequests,
      .every "tokenTypes" (.list .text),
      .every "tokenModifiers" (.list .text),
      .every "formats" (.list .text) ])

/-- What concerns documents. -/
def textDocument : Shape :=
  .record
    [ .every "synchronization"
        (flagRecord ["dynamicRegistration", "willSave", "willSaveWaitUntil", "didSave"]),
      .every "completion" completion,
      .every "hover" hover,
      .every "signatureHelp" signatureHelp,
      .every "declaration" linked,
      .every "definition" linked,
      .every "typeDefinition" linked,
      .every "implementation" linked,
      .every "references" registration,
      .every "documentHighlight" registration,
      .every "documentSymbol" documentSymbol,
      .every "codeAction" codeAction,
      .every "codeLens" registration,
      .every "documentLink" (flagRecord ["dynamicRegistration", "tooltipSupport"]),
      .every "colorProvider" registration,
      .every "formatting" registration,
      .every "rangeFormatting" registration,
      .every "onTypeFormatting" registration,
      .every "rename" rename,
      .every "publishDiagnostics" publishDiagnostics,
      .every "foldingRange" foldingRange,
      .every "selectionRange" registration,
      .every "linkedEditingRange" registration,
      .every "callHierarchy" registration,
      .every "semanticTokens" semanticTokens,
      .every "moniker" registration ]

/-! ## All capabilities -/

/-- A tool with the number of its version. -/
def versioned (name : String) : Shape :=
  .record [.every name .text, .every "version" .text]

/-- What concerns the window. -/
def window : Shape :=
  .record (flags ["workDoneProgress"] ++
    [ .every "showMessage"
        (.record [.every "messageActionItem" (flagRecord ["additionalPropertiesSupport"])]),
      .every "showDocument" (flagRecord ["support"]) ])

/-- What concerns the editor as a whole. -/
def general : Shape :=
  .record
    [ .every "regularExpressions" (versioned "engine"),
      .every "markdown" (versioned "parser") ]

/-- All that an editor can do. -/
def all : Shape :=
  .record
    [ .every "workspace" workspace,
      .every "textDocument" textDocument,
      .every "window" window,
      .every "general" general,
      .every "experimental" .anything ]

/-- A folder of a workspace. -/
def folder : Shape :=
  .record [.every "uri" .text, .every "name" .text]

end Capabilities

/-- The parameters that begin a session. -/
def beginning : Shape :=
  .record
    [ .every "workDoneToken" .token,
      .every "processId" .signed,
      .every "clientInfo" (Capabilities.versioned "name"),
      .every "locale" .text,
      .every "rootPath" .text,
      .every "rootUri" .text,
      .every "initializationOptions" .anything,
      .every "capabilities" Capabilities.all,
      .every "trace" .text,
      .every "workspaceFolders" (.list Capabilities.folder) ]

end Editor
end GlyphStack
