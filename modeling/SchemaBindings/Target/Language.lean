
namespace SchemaBindings

inductive Language where
  | kotlin
  | swift
  | dart
  | typeScript
  | gdScript
  deriving Repr, DecidableEq, Inhabited

namespace Language

def all : List Language :=
  [.kotlin, .swift, .dart, .typeScript, .gdScript]

def text : Language → String
  | kotlin => "kotlin"
  | swift => "swift"
  | dart => "dart"
  | typeScript => "typescript"
  | gdScript => "gdscript"

/-- Shorter or other names that the command line takes as well. -/
def aliases : Language → List String
  | kotlin => ["kt"]
  | swift => []
  | dart => []
  | typeScript => ["ts"]
  | gdScript => ["gd", "godot"]

/-- The language with a name, in either case of its letters. -/
def ofText? (name : String) : Option Language :=
  let lower := String.ofList (name.toList.map Char.toLower)
  all.find? fun l => (l.text :: l.aliases).contains lower

def unknownMessage (name : String) : String :=
  s!"unknown language `{name}` (expected one of kotlin, swift, dart, typescript, gdscript)"

def fileName : Language → String
  | kotlin => "Types.kt"
  | swift => "Types.swift"
  | dart => "types.dart"
  | typeScript => "types.ts"
  | gdScript => "types.gd"

def reserved : Language → List String
  | kotlin =>
    ["as", "break", "class", "continue", "do", "else", "false", "for", "fun", "if", "in",
      "interface", "is", "null", "object", "package", "return", "super", "this", "throw", "true",
      "try", "typealias", "typeof", "val", "var", "when", "while"]
  | swift =>
    ["associatedtype", "class", "deinit", "enum", "extension", "fileprivate", "func", "import",
      "init", "inout", "internal", "let", "open", "operator", "private", "protocol", "public",
      "rethrows", "static", "struct", "subscript", "typealias", "var", "break", "case",
      "continue", "default", "defer", "do", "else", "fallthrough", "for", "guard", "if", "in",
      "repeat", "return", "switch", "where", "while", "as", "Any", "catch", "false", "is", "nil",
      "self", "Self", "super", "throw", "throws", "true", "try", "Type"]
  | dart =>
    ["assert", "break", "case", "catch", "class", "const", "continue", "default", "do", "else",
      "enum", "extends", "false", "final", "finally", "for", "if", "in", "is", "new", "null",
      "rethrow", "return", "super", "switch", "this", "throw", "true", "try", "var", "void",
      "while", "with", "values", "index"]
  | typeScript =>
    ["break", "case", "catch", "class", "const", "continue", "debugger", "default", "delete",
      "do", "else", "enum", "export", "extends", "false", "finally", "for", "function", "if",
      "import", "in", "instanceof", "new", "null", "return", "super", "switch", "this", "throw",
      "true", "try", "typeof", "var", "void", "while", "with", "implements", "interface", "let",
      "package", "private", "protected", "public", "static", "yield"]
  | gdScript =>
    ["if", "elif", "else", "for", "while", "match", "break", "continue", "pass", "return",
      "class", "class_name", "extends", "is", "in", "as", "self", "signal", "func", "static",
      "const", "enum", "var", "breakpoint", "preload", "await", "yield", "assert", "void", "PI",
      "TAU", "INF", "NAN", "true", "false", "null", "and", "or", "not", "super", "Array",
      "Dictionary", "String", "Object", "Variant", "int", "float", "bool", "Node", "RefCounted",
      "Resource", "Color", "Callable", "Signal", "Error", "Time"]

theorem ofText?_text (l : Language) : ofText? l.text = some l := by
  cases l <;> decide

end Language

end SchemaBindings
