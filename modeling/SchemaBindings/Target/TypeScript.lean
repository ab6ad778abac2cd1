import SchemaBindings.Target.Place

namespace SchemaBindings.TypeScript

open Place Fragment

def fileTemplate : List Fragment :=
  [whenHolds (key "header")
     ["// Generated by ", key "generator", " ", key "version", " from ", join (key "sources") ", ",
      ". Do not edit.\n",
      "/* eslint-disable */\n",
      "\n"],
   key "body", "\n"]

def scalarTemplate : List Fragment :=
  [doc 0, "export type ", typeName (key "name"), " = string;\n"]

/-- An enum of text values, in which older names have current values, and its positions. -/
def enumTemplate : List Fragment :=
  [doc 0, "export enum ", typeName (key "name"), " \x7b\n",
   forEach (key "values")
     [doc 1, deprecated 1, "  ", caseName (key "name"), " = ", quoted (key "name"), ",\n"],
   forEach (key "aliases")
     ["  /** @deprecated Use ", caseName (key "canonical"), ". */\n",
      "  ", caseName (key "name"), " = ", quoted (key "canonical"), ",\n"],
   "\x7d\n",
   "\n",
   "export const ", typeName (key "name"), "Ordinal: Record<", typeName (key "name"),
   ", number> = \x7b\n",
   forEach (key "values")
     ["  [", typeName (outer "name"), ".", caseName (key "name"), "]: ", key "ordinal", ",\n"],
   "\x7d;\n"]

def interfaceTemplate : List Fragment :=
  [doc 0, "export interface ", typeName (key "name"),
   whenHolds (key "implements") [" extends ", typeNames (key "implements")], " \x7b\n",
   forEach (key "fields")
     [doc 1, deprecated 1, "  ", fieldName (key "name"), unlessHolds isRequired ["?"], ": ", type,
      ";\n"],
   "\x7d\n"]

def inputTemplate : List Fragment :=
  [doc 0, "export interface ", typeName (key "name"), " \x7b\n",
   forEach (key "fields")
     [doc 1, deprecated 1, "  ", fieldName (key "name"), unlessHolds isRequired ["?"], ": ", type,
      ";\n"],
   "\x7d\n"]

/-- A union of types; a wrapper tells its members apart by a kind. -/
def unionTemplate : List Fragment :=
  [doc 0, "export type ", typeName (key "name"), " =\n",
   .each (key "members")
     ["  | ",
      .choice (isWrapper (outer "kind"))
        ["\x7b kind: ", quoted (key "name"), "; value: ", typeName (key "type_name"), " \x7d"]
        [typeName (key "type_name")],
      whenHolds .isLast [";"], "\n"]
     (some ["  never;\n"])]

/-- An interface with a method for each field, which takes its arguments as one object. -/
def operationTemplate : List Fragment :=
  ["export interface ", typeName (key "type_name"), "Resolver \x7b\n",
   forEach (key "fields")
     [doc 1, deprecated 1, "  ", fieldName (key "name"), "(",
      whenHolds (key "arguments")
        ["args: \x7b ",
         forEach (key "arguments")
           [fieldName (key "name"), unlessHolds isRequired ["?"], ": ", type, betweenItems "; "],
         " \x7d"],
      "): Promise<", typeOf (key "return_type"), ">;\n"],
   "\x7d\n"]

end SchemaBindings.TypeScript
