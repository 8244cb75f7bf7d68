import FluentSql.Store

/-!
# Signatures

A method is called with arguments by place and by name.

* `Parameter` says what a parameter is called and what stands for it when it
  is left out.
* `Signature.bind` matches arguments with parameters; a call with too many
  arguments, a name that is not known or a parameter without an argument
  fails.
* `Method` is a named operation on objects of one kind.
-/

namespace FluentSql

/-- What stands for an argument that is left out. -/
inductive Omission where
  /-- The argument must not be left out. -/
  | refused
  /-- The method sees that it was left out. -/
  | seen
  /-- A value. -/
  | value (value : Value)

/-- A parameter of a method. -/
structure Parameter where
  /-- The name. -/
  name : String
  /-- What stands for the argument when it is left out. -/
  omission : Omission

namespace Parameter

/-- A parameter that must have an argument. -/
def needed (name : String) : Parameter := ⟨name, .refused⟩

/-- A parameter whose absence the method sees. -/
def free (name : String) : Parameter := ⟨name, .seen⟩

/-- A parameter with a default. -/
def defaulted (name : String) (value : Value) : Parameter := ⟨name, .value value⟩

end Parameter

/-- The parameters of a method. -/
structure Signature where
  /-- The parameters, in order. -/
  parameters : List Parameter := []
  /-- Whether further arguments may follow by place. -/
  takesRest : Bool := false

/-- Arguments matched with parameters. -/
structure Arguments where
  /-- The arguments by parameter. -/
  values : List (String × Value) := []
  /-- The further arguments. -/
  rest : List Value := []

namespace Arguments

/-- The argument of a parameter, unless it was left out. -/
def get? (a : Arguments) (name : String) : Option Value :=
  a.values.lookup name

/-- The argument of a parameter. -/
def get (a : Arguments) (name : String) : Value :=
  (a.get? name).getD .null

/-- The argument of a parameter, read as a condition. -/
def flag (a : Arguments) (name : String) : Bool :=
  (a.get name).truthy

end Arguments

namespace Signature

/-- The value of a parameter that has no argument by place. -/
def complete (named : List (String × Value)) (parameter : Parameter) :
    Except Failure (List (String × Value)) :=
  match named.lookup parameter.name, parameter.omission with
  | some value, _ => .ok [(parameter.name, value)]
  | none, .value value => .ok [(parameter.name, value)]
  | none, .seen => .ok []
  | none, .refused => .error .wrongType

/-- Matches the arguments of a call with the parameters. -/
def bind (signature : Signature) (placed : List Value) (named : List (String × Value)) :
    Except Failure Arguments := do
  let filled := signature.parameters.zip placed
  let open_ := signature.parameters.drop placed.length
  let rest := placed.drop signature.parameters.length
  if !rest.isEmpty && !signature.takesRest then throw .wrongType
  if !named.all fun argument => open_.any (·.name == argument.1) then throw .wrongType
  let others ← open_.mapM (complete named)
  return {
    values := filled.map (fun (parameter, value) => (parameter.name, value)) ++ others.flatten
    rest }

end Signature

/-- A named operation on objects of one kind. -/
structure Method (α : Type) where
  /-- The name. -/
  name : String
  /-- The parameters. -/
  signature : Signature
  /-- The operation. -/
  run : Runner → α → Arguments → Action Value

namespace Method

/-- The method of a name. -/
def find? {α : Type} (methods : List (Method α)) (name : String) : Option (Method α) :=
  methods.find? fun method => method.name == name

/-- Calls a method. -/
def call {α : Type} (method : Method α) (run : Runner) (target : α) (placed : List Value)
    (named : List (String × Value)) : Action Value := do
  let arguments ← Action.ofExcept (method.signature.bind placed named)
  method.run run target arguments

end Method

end FluentSql
