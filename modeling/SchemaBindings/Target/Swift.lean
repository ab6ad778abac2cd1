import SchemaBindings.Target.Place

namespace SchemaBindings.Swift

open Place Fragment

def fileTemplate : List Fragment :=
  [whenHolds (key "header")
     ["// Generated by ", key "generator", " ", key "version", " from ", join (key "sources") ", ",
      ". Do not edit.\n",
      "\n"],
   "import Foundation\n",
   "\n",
   key "body", "\n"]

def scalarTemplate : List Fragment :=
  [doc 0, "public typealias ", typeName (key "name"), " = String\n"]

/-- An enum with raw values. Older names are constants, and an initializer knows them. -/
def enumTemplate : List Fragment :=
  [doc 0, "public enum ", typeName (key "name"), ": String, Codable, CaseIterable \x7b\n",
   forEach (key "values")
     [doc 1, deprecated 1, "    case ", caseName (key "name"), " = ", quoted (key "name"), "\n"],
   "\n",
   "    /// Position of the case in the schema declaration.\n",
   "    public var ordinal: Int \x7b\n",
   "        switch self \x7b\n",
   forEach (key "values")
     ["        case .", caseName (key "name"), ": return ", key "ordinal", "\n"],
   "        \x7d\n",
   "    \x7d\n",
   whenHolds (key "aliases")
     [forEach (key "aliases")
        ["\n",
         "    @available(*, deprecated, renamed: \"", caseName (key "canonical"), "\")\n",
         "    public static let ", caseName (key "name"), ": ", typeName (outer "name"), " = .",
         caseName (key "canonical"), "\n"],
      "\n",
      "    /// Accepts current raw values and legacy aliases.\n",
      "    public init?(legacyRawValue: String) \x7b\n",
      "        switch legacyRawValue \x7b\n",
      forEach (key "aliases")
        ["        case ", quoted (key "name"), ": self = .", caseName (key "canonical"), "\n"],
      "        default: self.init(rawValue: legacyRawValue)\n",
      "        \x7d\n",
      "    \x7d\n"],
   "\x7d\n"]

def interfaceTemplate : List Fragment :=
  [doc 0, "public protocol ", typeName (key "name"),
   whenHolds (key "implements") [": ", typeNames (key "implements")], " \x7b\n",
   forEach (key "fields")
     [doc 1, deprecated 1, "    var ", fieldName (key "name"), ": ", type, " \x7b get \x7d\n"],
   "\x7d\n"]

/-- A struct or a class. A property that narrows that of an interface has a getter beside it. -/
def objectTemplate : List Fragment :=
  [doc 0, "public ", .choice (key "reference") ["final class"] ["struct"], " ",
   typeName (key "name"), whenHolds (key "implements") [": ", typeNames (key "implements")],
   " \x7b\n",
   forEach (key "fields") [doc 1, deprecated 1, "    public var ", key "stored", ": ", type, "\n"],
   forEach (key "fields")
     [whenHolds (key "witness")
        ["\n",
         "    /// `", key "name", "` as the interface declares it.\n",
         "    public var ", fieldName (key "name"), ": ", key "witness", " \x7b ", key "stored",
         " \x7d\n"]],
   "\n",
   "    public init(\n",
   forEach (key "fields")
     ["        ", key "stored", ": ", type,
      .choice fieldDefault [" = ", fieldDefault] [unlessHolds isRequired [" = nil"]],
      betweenItems ",", "\n"],
   "    ) \x7b\n",
   forEach (key "fields") ["        self.", key "stored", " = ", key "stored", "\n"], "    \x7d\n",
   "\x7d\n"]

def inputTemplate : List Fragment :=
  [doc 0, "public ", .choice (key "reference") ["final class"] ["struct"], " ",
   typeName (key "name"), " \x7b\n",
   forEach (key "fields") [doc 1, deprecated 1, "    public var ", key "stored", ": ", type, "\n"],
   "\n",
   "    public init(\n",
   forEach (key "fields")
     ["        ", key "stored", ": ", type,
      .choice fieldDefault [" = ", fieldDefault] [unlessHolds isRequired [" = nil"]],
      betweenItems ",", "\n"],
   "    ) \x7b\n",
   forEach (key "fields") ["        self.", key "stored", " = ", key "stored", "\n"], "    \x7d\n",
   "\x7d\n"]

/-- An enum with a case around each member. -/
def unionTemplate : List Fragment :=
  [doc 0, "public ", whenHolds (key "indirect") ["indirect "], "enum ", typeName (key "name"),
   " \x7b\n",
   forEach (key "members")
     [doc 1, deprecated 1, "    case ", variantName (key "name"), "(", typeName (key "type_name"),
      ")\n"],
   "\x7d\n"]

def operationTemplate : List Fragment :=
  ["public protocol ", typeName (key "type_name"), "Resolver \x7b\n",
   forEach (key "fields")
     [doc 1, deprecated 1, "    func ", fieldName (key "name"), "(",
      forEach (key "arguments") [fieldName (key "name"), ": ", type, betweenItems ", "],
      ") async throws -> ", typeOf (key "return_type"), "\n"],
   "\x7d\n"]

end SchemaBindings.Swift
