import SchemaBindings.Model.Type
import SchemaBindings.Sdl.Marker

namespace SchemaBindings.Model

open Sdl

inductive MemberFault where
  | takesArguments
  | isList (type : TypeExpr)
  | notComposite (type : TypeExpr)
  deriving Repr, DecidableEq

def MemberFault.reason : MemberFault → String
  | takesArguments => "takes arguments"
  | isList type => s!"is the list type `{type.display}`"
  | notComposite type => s!"has type `{type.display}`, which is not an object, interface or union"

inductive BuildError where
  | unresolvedType (name referrer : String)
  | unresolvedField (type field referrer : String)
  | unsupportedMarker (kind : MarkerKind) (target : String) (location : Location)
  | invalidWrapperMember (wrapper field : String) (fault : MemberFault) (location : Location)
  | unknownAliasTarget (enum canonical : String)
  | duplicateAlias (enum olderName : String)
  | notInputType (name kind referrer : String)
  deriving Repr, DecidableEq

namespace BuildError

def kind : BuildError → String
  | unresolvedType .. => "unresolved_type"
  | unresolvedField .. => "unresolved_field"
  | unsupportedMarker .. => "unsupported_marker"
  | invalidWrapperMember .. => "invalid_wrapper_member"
  | unknownAliasTarget .. => "unknown_alias_target"
  | duplicateAlias .. => "duplicate_alias"
  | notInputType .. => "not_an_input_type"

def message (sources : Sources) : BuildError → String
  | unresolvedType name referrer => s!"type `{name}` referenced by {referrer} is not declared"
  | unresolvedField type field referrer =>
    s!"type `{type}` has no field `{field}` (referenced by {referrer})"
  | unsupportedMarker kind target location =>
    s!"marker `{kind.text}` at {sources.describe location} cannot annotate {target}"
  | invalidWrapperMember wrapper field fault location =>
    s!"field `{field}` of union wrapper `{wrapper}` at {sources.describe location} {fault.reason}"
  | unknownAliasTarget enum canonical =>
    s!"legacy aliases target `{enum}.{canonical}`, which is not a value of `{enum}`"
  | duplicateAlias enum olderName =>
    s!"legacy alias `{olderName}` collides with an existing name in `{enum}`"
  | notInputType name kind referrer =>
    s!"`{name}` is declared as {kind} but {referrer} expects an input type"

def help : BuildError → Option String
  | unsupportedMarker .. => some "`=> Union` only applies to object types"
  | invalidWrapperMember .. =>
    some "every field of a union wrapper must be a single object, interface or union"
  | _ => none

end BuildError

end SchemaBindings.Model
