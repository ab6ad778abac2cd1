import SchemaBindings.Target.Place

namespace SchemaBindings.Dart

open Place Fragment

def fileTemplate : List Fragment :=
  [whenHolds (key "header")
     ["// Generated by ", key "generator", " ", key "version", " from ", join (key "sources") ", ",
      ". Do not edit.\n",
      "// ignore_for_file: constant_identifier_names, unnecessary_const\n",
      "\n"],
   whenHolds (key "package") ["library ", key "package", ";\n", "\n"], key "body", "\n"]

def scalarTemplate : List Fragment :=
  [doc 0, "typedef ", typeName (key "name"), " = String;\n"]

/-- An enum with a look-up by raw value. Older names are constants. -/
def enumTemplate : List Fragment :=
  [doc 0, "enum ", typeName (key "name"), " \x7b\n",
   forEach (key "values")
     [doc 1, deprecated 1, "  ", caseName (key "name"), "(", quoted (key "name"), ", ",
      key "ordinal", ")", .choice .isLast [";"] [","], "\n"],
   "\n",
   "  const ", typeName (key "name"), "(this.value, this.ordinal);\n",
   "\n",
   "  /// Raw value as declared in the schema.\n",
   "  final String value;\n",
   "\n",
   "  /// Position in the schema declaration, kept when future values are left out.\n",
   "  final int ordinal;\n",
   forEach (key "aliases")
     ["\n",
      "  @Deprecated('Use ", caseName (key "canonical"), "')\n",
      "  static const ", caseName (key "name"), " = ", typeName (outer "name"), ".",
      caseName (key "canonical"), ";\n"],
   "\n",
   "  /// Looks up a case by raw value, legacy aliases included.\n",
   "  static ", typeName (key "name"), "? fromValue(String value) \x7b\n",
   "    switch (value) \x7b\n",
   forEach (key "values")
     ["      case ", quoted (key "name"), ":\n",
      "        return ", typeName (outer "name"), ".", caseName (key "name"), ";\n"],
   forEach (key "aliases")
     ["      case ", quoted (key "name"), ":\n",
      "        return ", typeName (outer "name"), ".", caseName (key "canonical"), ";\n"],
   "    \x7d\n",
   "    return null;\n",
   "  \x7d\n",
   "\x7d\n"]

def interfaceTemplate : List Fragment :=
  [doc 0, "abstract class ", typeName (key "name"),
   whenHolds (key "implements") [" implements ", typeNames (key "implements")], " \x7b\n",
   forEach (key "fields") [doc 1, deprecated 1, "  ", type, " get ", fieldName (key "name"), ";\n"],
   "\x7d\n"]

/-- A class with named parameters; those without a default are required unless they admit null. -/
def objectTemplate : List Fragment :=
  [doc 0, "class ", typeName (key "name"),
   whenHolds supertypes [" implements ", join supertypes ", "], " \x7b\n",
   "  const ", typeName (key "name"), "(",
   whenHolds (key "fields")
     ["\x7b\n",
      forEach (key "fields")
        ["    ", whenHolds isRequired [unlessHolds fieldDefault ["required "]], "this.",
         fieldName (key "name"), whenHolds fieldDefault [" = ", fieldDefault], ",\n"],
      "  \x7d"],
   ");\n",
   forEach (key "fields")
     ["\n",
      doc 1, deprecated 1, whenHolds isInherited ["  @override\n"], "  final ", type, " ",
      fieldName (key "name"), ";\n"],
   "\x7d\n"]

def inputTemplate : List Fragment :=
  [doc 0, "class ", typeName (key "name"), " \x7b\n",
   "  const ", typeName (key "name"), "(",
   whenHolds (key "fields")
     ["\x7b\n",
      forEach (key "fields")
        ["    ", whenHolds isRequired [unlessHolds fieldDefault ["required "]], "this.",
         fieldName (key "name"), whenHolds fieldDefault [" = ", fieldDefault], ",\n"],
      "  \x7d"],
   ");\n",
   forEach (key "fields")
     ["\n",
      doc 1, deprecated 1, "  final ", type, " ", fieldName (key "name"), ";\n"],
   "\x7d\n"]

/-- A sealed class, and for a wrapper a class around each member. -/
def unionTemplate : List Fragment :=
  [doc 0, "sealed class ", typeName (key "name"), " \x7b\n",
   "  const ", typeName (key "name"), "();\n",
   "\x7d\n",
   whenHolds (isWrapper (key "kind"))
     [forEach (key "members")
        ["\n",
         doc 0, deprecated 0, "final class ", typeName (outer "name"), variantName (key "name"),
         " extends ", typeName (outer "name"), " \x7b\n",
         "  const ", typeName (outer "name"), variantName (key "name"), "(this.value);\n",
         "\n",
         "  final ", typeName (key "type_name"), " value;\n",
         "\x7d\n"]]]

def operationTemplate : List Fragment :=
  ["abstract class ", typeName (key "type_name"), "Resolver \x7b\n",
   forEach (key "fields")
     [doc 1, deprecated 1, "  Future<", typeOf (key "return_type"), "> ", fieldName (key "name"),
      "(",
      whenHolds (key "arguments")
        ["\x7b ",
         forEach (key "arguments")
           [whenHolds isRequired ["required "], type, " ", fieldName (key "name"),
            betweenItems ", "],
         " \x7d"],
      ");\n"],
   "\x7d\n"]

end SchemaBindings.Dart
