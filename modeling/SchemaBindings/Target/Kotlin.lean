import SchemaBindings.Target.Place

namespace SchemaBindings.Kotlin

open Place Fragment

def fileTemplate : List Fragment :=
  [whenHolds (key "header")
     ["// Generated by ", key "generator", " ", key "version", " from ", join (key "sources") ", ",
      ". Do not edit.\n",
      "\n"],
   whenHolds (key "package") ["package ", key "package", "\n", "\n"], key "body", "\n"]

def scalarTemplate : List Fragment :=
  [doc 0, "typealias ", typeName (key "name"), " = String\n"]

def enumTemplate : List Fragment :=
  [doc 0, "enum class ", typeName (key "name"),
   "(val rawValue: String, val schemaOrdinal: Int) \x7b\n",
   forEach (key "values")
     [doc 1, deprecated 1, "    ", caseName (key "name"), "(", quoted (key "name"), ", ",
      key "ordinal", ")", .choice .isLast [";"] [","], "\n"],
   "\n",
   "    companion object \x7b\n",
   forEach (key "aliases")
     ["        @Deprecated(\"Use ", caseName (key "canonical"), "\", ReplaceWith(\"",
      typeName (outer "name"), ".", caseName (key "canonical"), "\"))\n",
      "        val ", caseName (key "name"), ": ", typeName (outer "name"), " get() = ",
      caseName (key "canonical"), "\n",
      "\n"],
   "        fun fromRawValue(value: String): ", typeName (key "name"), "? = when (value) \x7b\n",
   forEach (key "values")
     ["            ", quoted (key "name"), " -> ", caseName (key "name"), "\n"],
   forEach (key "aliases")
     ["            ", quoted (key "name"), " -> ", caseName (key "canonical"), "\n"],
   "            else -> null\n",
   "        \x7d\n",
   "    \x7d\n",
   "\x7d\n"]

def interfaceTemplate : List Fragment :=
  [doc 0, "interface ", typeName (key "name"),
   whenHolds (key "implements") [" : ", typeNames (key "implements")], " \x7b\n",
   forEach (key "fields")
     [doc 1, deprecated 1, "    ", whenHolds isInherited ["override "], "val ",
      fieldName (key "name"), ": ", type, "\n"],
   "\x7d\n"]

/-- A data class; one without fields cannot be one. -/
def objectTemplate : List Fragment :=
  [doc 0, whenHolds (key "fields") ["data "], "class ", typeName (key "name"), "(\n",
   forEach (key "fields")
     [doc 1, deprecated 1, "    ", whenHolds isInherited ["override "], "val ",
      fieldName (key "name"), ": ", type,
      .choice fieldDefault [" = ", fieldDefault] [unlessHolds isRequired [" = null"]], ",\n"],
   ")", whenHolds supertypes [" : ", join supertypes ", "], "\n"]

def inputTemplate : List Fragment :=
  [doc 0, whenHolds (key "fields") ["data "], "class ", typeName (key "name"), "(\n",
   forEach (key "fields")
     [doc 1, deprecated 1, "    val ", fieldName (key "name"), ": ", type,
      .choice fieldDefault [" = ", fieldDefault] [unlessHolds isRequired [" = null"]], ",\n"],
   ")\n"]

/-- A sealed interface, and for a wrapper a class around each member. -/
def unionTemplate : List Fragment :=
  [doc 0, "sealed interface ", typeName (key "name"), "\n",
   whenHolds (isWrapper (key "kind"))
     [forEach (key "members")
        ["\n",
         doc 0, deprecated 0, "data class ", typeName (outer "name"), variantName (key "name"),
         "(val value: ", typeName (key "type_name"), ") : ", typeName (outer "name"), "\n"]]]

def operationTemplate : List Fragment :=
  ["interface ", typeName (key "type_name"), "Resolver \x7b\n",
   forEach (key "fields")
     [doc 1, deprecated 1, "    suspend fun ", fieldName (key "name"), "(",
      forEach (key "arguments")
        [fieldName (key "name"), ": ", type,
         whenHolds (key "default_value") [" = ", literal (key "default_value")], betweenItems ", "],
      "): ", typeOf (key "return_type"), "\n"],
   "\x7d\n"]

end SchemaBindings.Kotlin
