
namespace SchemaBindings.Template

/-- What a place of a template stands for. -/
inductive Expr (Op : Type) where
  /-- The value found under keys, one inside the other, `outer` repetitions further out. -/
  | path (outer : Nat) (keys : List String)
  | isLast
  | text (s : String)
  | call (op : Op) (arguments : List (Expr Op))
  deriving Repr

/-- A part of a template. -/
inductive Piece (Op : Type) where
  | text (s : String)
  | value (e : Expr Op)
  /-- One of two parts, as a value holds or not. -/
  | choice (condition : Expr Op) (yes no : List (Piece Op))
  /-- A part for each item of a value, and maybe one for a value without items. -/
  | each (list : Expr Op) (body : List (Piece Op)) (otherwise : Option (List (Piece Op)))
  deriving Repr

instance {Op : Type} : Coe String (Piece Op) := ⟨.text⟩

instance {Op : Type} : Coe (Expr Op) (Piece Op) := ⟨.value⟩

end SchemaBindings.Template
