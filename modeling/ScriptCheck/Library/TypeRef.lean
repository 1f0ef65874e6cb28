/-!
# Type references

The form in which library descriptions refer to types. A reference names a type of the prelude, a
generic parameter of the description it stands in, or a type exported by a module, or is built from
other references. `Library.Registry` resolves references to types.
-/

namespace ScriptCheck

/-- A reference to a type in a library description. -/
inductive TypeRef where
  /-- A type of the prelude. -/
  | builtin (name : String)
  /-- A generic parameter. -/
  | generic (name : String)
  /-- A type exported by a module, or of the prelude if `module` is empty. -/
  | standard (module name : String) (args : List TypeRef)
  | array (param : TypeRef)
  | option (param : TypeRef)
  | result (ok err : TypeRef)
  | tuple (params : List TypeRef)
  | record (names : List String) (params : List TypeRef)
  | function (isAsync : Bool) (params : List TypeRef) (result : TypeRef)
deriving Inhabited

end ScriptCheck
