
namespace SchemaBindings.Naming

/-- How a reserved word is made usable as an identifier. -/
inductive EscapeStyle where
  | backticks
  | trailingUnderscore
  | leading (text : String)
  deriving Repr, DecidableEq

def EscapeStyle.apply (style : EscapeStyle) (word : String) : String :=
  match style with
  | .backticks => "`" ++ word ++ "`"
  | .trailingUnderscore => word ++ "_"
  | .leading text => text ++ word

def escape (name : String) (reserved : List String) (style : EscapeStyle) : String :=
  if name ∈ reserved then style.apply name else name

end SchemaBindings.Naming
