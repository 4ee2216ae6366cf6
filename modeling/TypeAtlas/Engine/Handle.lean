/-
  Handles of types.

  A handle is what a name resolves to.  It has an identity and stands for a
  primitive, an array, a compiled type, a type of which only the shape is given,
  or, as a placeholder, for a name that nobody knows.

  * `Handle.shape` is the shape of the type; only that of a compiled type can be
    missing, when its blob cannot be read;
  * an array is called after its component, by its simple name if the
    component's shape can be read.
-/
import TypeAtlas.Blob.Reader
import TypeAtlas.Build.Compile
import TypeAtlas.Engine.Error
import TypeAtlas.Shape.Builtin

namespace TypeAtlas

mutual

/-- What a name resolves to. -/
inductive Handle where
  /-- Its identity and what it stands for. -/
  | mk (id : Nat) (kind : HandleKind)

/-- What a handle stands for. -/
inductive HandleKind where
  | primitive (primitive : Primitive)
  | array (name : String) (component : Handle)
  | compiled (compiled : Compiled)
  /-- A type of which only the shape is given. -/
  | described (shape : Shape)
  | placeholder (name : String)

end

namespace HandleKind

def name : HandleKind → String
  | primitive p => p.name
  | array name _ => name
  | compiled c => c.table.typeName
  | described shape => shape.name
  | placeholder name => name

end HandleKind

namespace Handle

def id : Handle → Nat
  | mk id _ => id

def kind : Handle → HandleKind
  | mk _ kind => kind

instance : Inhabited Handle := ⟨mk 0 (.placeholder "")⟩

def name (handle : Handle) : String := handle.kind.name

/-- Whether the type is a primitive. -/
def isPrimitive (handle : Handle) : Bool :=
  match handle.kind with
  | .primitive _ => true
  | _ => false

/-- Whether the handle is a placeholder. -/
def isPlaceholder (handle : Handle) : Bool :=
  match handle.kind with
  | .placeholder _ => true
  | _ => false

def component? (handle : Handle) : Option Handle :=
  match handle.kind with
  | .array _ component => some component
  | _ => none

def compiled? (handle : Handle) : Option Compiled :=
  match handle.kind with
  | .compiled c => some c
  | _ => none

/-- The shape of a compiled type, read from its blob. -/
def shapeOfBlob (blob : String) : Except EngineError Shape :=
  match Shape.ofBase64 blob with
  | .ok shape => .ok shape
  | .error e => .error (.blob e)

def shape : Handle → Except EngineError Shape
  | mk _ (.primitive p) => .ok p.shape
  | mk _ (.array name component) =>
    match component.shape with
    | .ok shape => .ok (.ofArray name shape.simpleName)
    | .error _ => .ok (.ofArray name component.name)
  | mk _ (.compiled c) => shapeOfBlob c.blob
  | mk _ (.described shape) => .ok shape
  | mk _ (.placeholder name) => .ok (.ofName name .cls)

end Handle

end TypeAtlas
