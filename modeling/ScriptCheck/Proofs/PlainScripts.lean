import ScriptCheck.Script.Item

/-!
# Scripts without ranges

Short forms of what scripts are made of, with no ranges and without descriptions. Statements about
scripts are illustrated by scripts of this kind.
-/

namespace ScriptCheck

/-- The annotation `name`. -/
def TypeSpec.plain (name : String) : TypeSpec := .named {} none name []

namespace Expr

/-- The expression `name`. -/
def ofName (name : String) : Expr := .var {} none ⟨name, {}⟩

/-- The expression `name(args)`. -/
def ofCall (name : String) (args : List Expr) : Expr := .call {} none ⟨name, {}⟩ [] args

/-- The expression `target.name`. -/
def ofField (target : Expr) (name : String) : Expr := .field {} target ⟨name, {}⟩

/-- The expression `let name = value`. -/
def ofLet (name : String) (value : Expr) : Expr := .declare {} false (.single ⟨name, {}⟩) none value

end Expr

/-- The parameter `name : type`. -/
def ParamDecl.ofType (name : String) (type : TypeSpec) : ParamDecl :=
  { name := ⟨name, {}⟩, type := some type }

/-- The receiver of a method. -/
def ParamDecl.self : ParamDecl := { name := ⟨"self", {}⟩ }

/-- The function `fn name(params) -> result = body`. -/
def FunctionDecl.ofBody (name : String) (params : List ParamDecl) (result : String) (body : Expr) :
    FunctionDecl :=
  { name := ⟨name, {}⟩, params, result := .plain result, body, range := {} }

/-- The constant `const name = value`. -/
def ConstDecl.ofValue (name : String) (value : Expr) : ConstDecl :=
  { name := ⟨name, {}⟩, value, range := {} }

/-- The block `impl name { functions }` or `impl operators name { functions }`. -/
def ImplDecl.ofFunctions (name : String) (functions : List FunctionDecl) : ImplDecl :=
  { name := ⟨name, {}⟩, functions, range := {} }

namespace Item

/-- The item `type name = type`. -/
def ofAlias (name type : String) : Item :=
  .typeAlias { name := ⟨name, {}⟩, type := .plain type, range := {} }

/-- The item `struct name ( fields )`. -/
def ofStruct (name : String) (fields : List (String × TypeSpec)) : Item :=
  .struct
    { name := ⟨name, {}⟩, fields := fields.map fun f => { name := ⟨f.1, {}⟩, type := f.2 }
      range := {} }

end Item

/-- The script `main`. -/
def Script.ofItems (items : List Item) : Script := { name := "main", items }

end ScriptCheck
