import SchemaBindings.Target.Place

namespace SchemaBindings.GdScript

open Place Fragment

def fileTemplate : List Fragment :=
  [whenHolds (key "header")
     ["# Generated by ", key "generator", " ", key "version", " from ", join (key "sources") ", ",
      ". Do not edit.\n",
      "\n"],
   whenHolds (key "package") ["class_name ", key "package", "\n"], "extends RefCounted\n",
   "\n",
   key "body", "\n"]

/-- Values of a scalar can be anything, so there is a comment and no declaration. -/
def scalarTemplate : List Fragment :=
  [doc 0, "## Custom scalar `", key "name", "`, carried as Variant.\n"]

def enumTemplate : List Fragment :=
  [doc 0, "enum ", typeName (key "name"), " \x7b\n",
   forEach (key "values")
     [doc 1, deprecated 1, "\t", caseName (key "name"), " = ", key "ordinal", ",\n"],
   forEach (key "aliases")
     ["\t## @deprecated: Use ", caseName (key "canonical"), ".\n",
      "\t", caseName (key "name"), " = ", key "ordinal", ",\n"],
   "\x7d\n",
   "\n",
   "## Raw values of `", typeName (key "name"), "`, legacy aliases included.\n",
   "const ", constant (key "name"), "_BY_VALUE := \x7b\n",
   forEach (key "values")
     ["\t", quoted (key "name"), ": ", typeName (outer "name"), ".", caseName (key "name"), ",\n"],
   forEach (key "aliases")
     ["\t", quoted (key "name"), ": ", typeName (outer "name"), ".", caseName (key "canonical"),
      ",\n"],
   "\x7d\n"]

/-- A class that extends its base and declares the fields that the base does not. -/
def classTemplate : List Fragment :=
  [doc 0,
   whenHolds (key "also_implements")
     ["## Also implements ", forEach (key "also_implements") ["`", item, "`", betweenItems ", "],
      ".\n"],
   "class ", typeName (key "name"), " extends ",
   .choice (key "base") [typeName (key "base")] ["RefCounted"], ":\n",
   .each (key "fields")
     [doc 1, deprecated 1, "\tvar ", fieldName (key "name"), ": ", type,
      whenHolds fieldDefault [" = ", fieldDefault], "\n"]
     (some ["\tpass\n"])]

def inputTemplate : List Fragment :=
  [doc 0, "class ", typeName (key "name"), " extends RefCounted:\n",
   .each (key "fields")
     [doc 1, deprecated 1, "\tvar ", fieldName (key "name"), ": ", type,
      whenHolds fieldDefault [" = ", fieldDefault], "\n"]
     (some ["\tpass\n"])]

/-- A class that holds one member and the name of it. -/
def unionTemplate : List Fragment :=
  [doc 0, "class ", typeName (key "name"), " extends RefCounted:\n",
   forEach (key "members") ["\tconst ", constant (key "name"), " := ", quoted (key "name"), "\n"],
   "\n",
   "\t## Name of the active member.\n",
   "\tvar kind: String\n",
   "\t## Value of the active member: ",
   forEach (key "members") ["`", typeName (key "type_name"), "`", betweenItems ", "], ".\n",
   "\tvar value: Variant\n"]

def operationTemplate : List Fragment :=
  ["class ", typeName (key "type_name"), "Resolver extends RefCounted:\n",
   .each (key "fields")
     [doc 1, deprecated 1, "\tfunc ", fieldName (key "name"), "(", key "params", ") -> ",
      key "return_type", ":\n",
      "\t\tpush_error(\"", typeName (outer "type_name"), "Resolver.", fieldName (key "name"),
      " is not implemented\")\n",
      "\t\treturn ", key "stub", "\n",
      "\n"]
     (some ["\tpass\n"])]

end SchemaBindings.GdScript
