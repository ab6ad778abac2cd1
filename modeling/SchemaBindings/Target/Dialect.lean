import SchemaBindings.Naming.Reserved
import SchemaBindings.Naming.Style
import SchemaBindings.Number.Layout
import SchemaBindings.Target.Comment
import SchemaBindings.Target.Language
import SchemaBindings.Target.Quoting

namespace SchemaBindings

open Naming

inductive CommentStyle where
  | lines (marker : String)
  | block
  deriving Repr, DecidableEq

inductive DeprecationStyle where
  | attribute (before after : String)
  | comment
  deriving Repr, DecidableEq

inductive ListStyle where
  | around (before after : String)
  /-- The type of the items before a pair of brackets. A type that admits null is put in
  parentheses. -/
  | suffix
  deriving Repr, DecidableEq

inductive ObjectStyle where
  | none
  /-- As a call of the type, with a text before it, and with a sign between the names and the
  values. -/
  | call (before sign : String)
  | record
  deriving Repr, DecidableEq

structure ScalarWords where
  text : String
  int : String
  float : String
  boolean : String
  deriving Repr, DecidableEq

/-- Every rule that differs between the languages. -/
structure Dialect where
  indent : String
  escape : EscapeStyle
  fieldStyle : Style
  caseStyle : Style
  variantStyle : Style
  /-- Whether fields and enum cases may be called by reserved words. -/
  freeMembers : Bool
  scalars : ScalarWords
  /-- The spelling of all declared scalars, if they are not told apart. -/
  anyScalar : Option String
  comment : CommentStyle
  deprecation : DeprecationStyle
  quoting : Quoting
  float : Layout
  null : String
  nullMark : String
  list : ListStyle
  /-- Whether enum cases are written with the name of their type. -/
  qualifiedCases : Bool
  listMarks : String × String
  object : ObjectStyle
  deriving Repr, DecidableEq

namespace Dialect

def kotlin : Dialect where
  indent := "    "
  escape := .backticks
  fieldStyle := .preserve
  caseStyle := .preserve
  variantStyle := .pascal
  freeMembers := false
  scalars := ⟨"String", "Int", "Double", "Boolean"⟩
  anyScalar := none
  comment := .block
  deprecation := .attribute "@Deprecated(" ")"
  quoting := ⟨'"', true⟩
  float := .literal
  null := "null"
  nullMark := "?"
  list := .around "List<" ">"
  qualifiedCases := true
  listMarks := ("listOf(", ")")
  object := .call "" " = "

def swift : Dialect where
  indent := "    "
  escape := .backticks
  fieldStyle := .preserve
  caseStyle := .camel
  variantStyle := .camel
  freeMembers := false
  scalars := ⟨"String", "Int", "Double", "Bool"⟩
  anyScalar := none
  comment := .lines "///"
  deprecation := .attribute "@available(*, deprecated, message: " ")"
  quoting := ⟨'"', false⟩
  float := .literal
  null := "nil"
  nullMark := "?"
  list := .around "[" "]"
  qualifiedCases := false
  listMarks := ("[", "]")
  object := .call "" ": "

/-- Default values of parameters are constant. -/
def dart : Dialect where
  indent := "  "
  escape := .trailingUnderscore
  fieldStyle := .preserve
  caseStyle := .camel
  variantStyle := .pascal
  freeMembers := false
  scalars := ⟨"String", "int", "double", "bool"⟩
  anyScalar := none
  comment := .lines "///"
  deprecation := .attribute "@Deprecated(" ")"
  quoting := ⟨'\x27', true⟩
  float := .literal
  null := "null"
  nullMark := "?"
  list := .around "List<" ">"
  qualifiedCases := true
  listMarks := ("const [", "]")
  object := .call "const " ": "

def typeScript : Dialect where
  indent := "  "
  escape := .trailingUnderscore
  fieldStyle := .preserve
  caseStyle := .preserve
  variantStyle := .pascal
  freeMembers := true
  scalars := ⟨"string", "number", "number", "boolean"⟩
  anyScalar := none
  comment := .block
  deprecation := .comment
  quoting := ⟨'\x27', false⟩
  float := .plain
  null := "null"
  nullMark := " | null"
  list := .suffix
  qualifiedCases := true
  listMarks := ("[", "]")
  object := .record

/-- Values of declared scalars can be of any type, and no type is marked for null. -/
def gdScript : Dialect where
  indent := "\t"
  escape := .leading "p_"
  fieldStyle := .snake
  caseStyle := .constant
  variantStyle := .pascal
  freeMembers := false
  scalars := ⟨"String", "int", "float", "bool"⟩
  anyScalar := some "Variant"
  comment := .lines "##"
  deprecation := .comment
  quoting := ⟨'"', false⟩
  float := .literal
  null := "null"
  nullMark := ""
  list := .around "Array[" "]"
  qualifiedCases := true
  listMarks := ("[", "]")
  object := .none

def scalar? (d : Dialect) (name : String) : Option String :=
  if name = "ID" ∨ name = "String" then some d.scalars.text
  else if name = "Int" then some d.scalars.int
  else if name = "Float" then some d.scalars.float
  else if name = "Boolean" then some d.scalars.boolean
  else none

def indentation (d : Dialect) (level : Nat) : List Char :=
  (List.replicate level d.indent.toList).flatten

def docComment (d : Dialect) (indent text : List Char) : List Char :=
  match d.comment with
  | .lines marker => Comment.lines indent marker.toList text
  | .block => Comment.block indent text

def textLiteral (d : Dialect) (cs : List Char) : List Char :=
  d.quoting.quote cs

def deprecated (d : Dialect) (indent reason : List Char) : List Char :=
  match d.deprecation, d.comment with
  | .attribute before after, _ =>
    indent ++ before.toList ++ d.textLiteral reason ++ after.toList ++ ['\n']
  | .comment, .lines marker =>
    Comment.lines indent marker.toList ("@deprecated: ".toList ++ reason)
  | .comment, .block =>
    indent ++ "/** @deprecated ".toList ++ Comment.breakEnds reason ++ " */\n".toList

def optional (d : Dialect) (type : String) : String :=
  type ++ d.nullMark

def listOf (d : Dialect) (required : Bool) (item : String) : String :=
  match d.list with
  | .around before after => before ++ item ++ after
  | .suffix => if required then item ++ "[]" else "(" ++ item ++ ")[]"

/-- A case of an enum as a value. -/
def caseLiteral (d : Dialect) (type name : String) : String :=
  if d.qualifiedCases then type ++ "." ++ name else "." ++ name

def listLiteral (d : Dialect) (items : List String) : String :=
  d.listMarks.1 ++ ", ".intercalate items ++ d.listMarks.2

def objectLiteral? (d : Dialect) (type : String) (fields : List (String × String)) :
    Option String :=
  let joined (sign : String) := ", ".intercalate (fields.map fun f => f.1 ++ sign ++ f.2)
  match d.object with
  | .none => none
  | .call before sign => some (before ++ type ++ "(" ++ joined sign ++ ")")
  | .record => some (if fields.isEmpty then "\x7b\x7d" else "\x7b " ++ joined ": " ++ " \x7d")

end Dialect

namespace Language

def dialect : Language → Dialect
  | kotlin => .kotlin
  | swift => .swift
  | dart => .dart
  | typeScript => .typeScript
  | gdScript => .gdScript

def identifier (l : Language) (name : String) : String :=
  escape name l.reserved l.dialect.escape

def typeName (l : Language) (name : String) : String :=
  l.identifier name

def memberName (l : Language) (style : Style) (name : String) : String :=
  let spelled := style.apply name
  if l.dialect.freeMembers then spelled else l.identifier spelled

def fieldName (l : Language) (name : String) : String :=
  l.memberName l.dialect.fieldStyle name

def caseName (l : Language) (name : String) : String :=
  l.memberName l.dialect.caseStyle name

def variantName (l : Language) (name : String) : String :=
  l.identifier (l.dialect.variantStyle.apply name)

def scalarName (l : Language) (name : String) : String :=
  (l.dialect.scalar? name).getD (l.typeName name)

def declaredScalar (l : Language) (name : String) : String :=
  l.dialect.anyScalar.getD (l.typeName name)

end Language

end SchemaBindings
