/-
  Values.

  A `Value` is what calls hand over and return: nothing, a boxed primitive, a
  text, or an object of the host.  A `Native` is what the bodies of members work
  with: a primitive as such, no value, or a reference.

  * `Primitive.unbox` takes a value to a primitive of exactly that type; no
    number is ever widened (`unbox_box`);
  * `Native.box` is the way back;
  * `Value.fits` says where texts and boxed primitives may stand; objects may
    stand everywhere, since what is above their types is not known here;
  * `Value.agrees` compares numbers as numbers and objects by identity.
-/
import TypeAtlas.Binary
import TypeAtlas.Host.Error
import TypeAtlas.Name.Basic

namespace TypeAtlas

/-- A reference to an object of the host. -/
structure ObjectRef where
  /-- The identity of the object. -/
  id : Nat
  /-- The name of the type under which it was made. -/
  typeName : String
  deriving DecidableEq

/-- A value in its general form. -/
inductive Value where
  | null
  | boolean (b : Bool)
  | byte (n : Int8)
  | char (c : Char)
  | short (n : Int16)
  | int (n : Int32)
  | long (n : Int64)
  | float (x : Binary32)
  | double (x : Binary64)
  | text (s : String)
  | object (ref : ObjectRef)
  deriving DecidableEq

/-- A value as bodies work with it. -/
inductive Native where
  | boolean (b : Bool)
  | byte (n : Int8)
  | char (c : Char)
  | short (n : Int16)
  | int (n : Int32)
  | long (n : Int64)
  | float (x : Binary32)
  | double (x : Binary64)
  | void
  | ref (value : Value)
  deriving DecidableEq

instance : Inhabited Value := ⟨.null⟩

instance : Inhabited Native := ⟨.void⟩

/-! ## Values -/

namespace Value

/-- The primitive of a boxed value. -/
def primitive? : Value → Option Primitive
  | boolean _ => some .boolean
  | byte _ => some .byte
  | char _ => some .char
  | short _ => some .short
  | int _ => some .int
  | long _ => some .long
  | float _ => some .float
  | double _ => some .double
  | null | text _ | object _ => none

/-- The name of a value's type. -/
def typeName : Value → String
  | null => "null"
  | boolean _ => Primitive.boolean.wrapper
  | byte _ => Primitive.byte.wrapper
  | char _ => Primitive.char.wrapper
  | short _ => Primitive.short.wrapper
  | int _ => Primitive.int.wrapper
  | long _ => Primitive.long.wrapper
  | float _ => Primitive.float.wrapper
  | double _ => Primitive.double.wrapper
  | text _ => Name.string
  | object ref => ref.typeName

def object? : Value → Option ObjectRef
  | object ref => some ref
  | _ => none

def text? : Value → Option String
  | text s => some s
  | _ => none

/-- The types other than its own where a text may stand. -/
def aboveText : List String :=
  [Name.object, Name.serializable, Name.comparable, Name.charSequence]

/-- The types other than its wrapper where a boxed primitive may stand. -/
def aboveBoxed (primitive : Primitive) : List String :=
  [Name.object, Name.serializable, Name.comparable] ++
    if primitive.isNumeric then [Name.number] else []

/-- Whether a value may stand where a reference of a type is expected. -/
def fits (value : Value) (typeName : String) : Bool :=
  match value with
  | null | object _ => true
  | text _ => typeName == Name.string || aboveText.contains typeName
  | boxed =>
    boxed.primitive?.any fun primitive =>
      typeName == primitive.wrapper || (aboveBoxed primitive).contains typeName

/-- Whether two values are equal: numbers as numbers, objects by identity. -/
def agrees : Value → Value → Bool
  | float x, float y => x.numEq y
  | double x, double y => x.numEq y
  | object x, object y => x.id == y.id
  | x, y => x == y

end Value

/-! ## Natives -/

namespace Native

/-- The primitive of a value that is no reference. -/
def primitive? : Native → Option Primitive
  | boolean _ => some .boolean
  | byte _ => some .byte
  | char _ => some .char
  | short _ => some .short
  | int _ => some .int
  | long _ => some .long
  | float _ => some .float
  | double _ => some .double
  | void => some .void
  | ref _ => none

/-- The general form of a value. -/
def box : Native → Value
  | boolean b => .boolean b
  | byte n => .byte n
  | char c => .char c
  | short n => .short n
  | int n => .int n
  | long n => .long n
  | float x => .float x
  | double x => .double x
  | void => .null
  | ref value => value

/-- The name of a value's type. -/
def typeName : Native → String
  | ref value => value.typeName
  | native => (native.primitive?.map Primitive.name).getD "?"

/-- Whether two values are equal: numbers as numbers, objects by identity. -/
def agrees : Native → Native → Bool
  | float x, float y => x.numEq y
  | double x, double y => x.numEq y
  | ref x, ref y => x.agrees y
  | x, y => x == y

/-! ### Taking values out -/

/-- The refusal of a value where another type is expected. -/
def refuse {α : Type} (native : Native) (expected : String) : Except CallError α :=
  .error (.wrongType expected native.typeName)

def asBool : Native → Except CallError Bool
  | boolean b => .ok b
  | native => native.refuse "boolean"

def asInt : Native → Except CallError Int32
  | int n => .ok n
  | native => native.refuse "int"

def asLong : Native → Except CallError Int64
  | long n => .ok n
  | native => native.refuse "long"

/-- The floating-point number of 64 bits. -/
def asDouble : Native → Except CallError Binary64
  | double x => .ok x
  | native => native.refuse "double"

def asRef : Native → Except CallError Value
  | ref value => .ok value
  | native => native.refuse "reference"

def asText : Native → Except CallError String
  | ref (.text s) => .ok s
  | native => native.refuse Name.string

end Native

/-! ## Unboxing -/

/-- The primitive value of exactly this type in a value. -/
def Primitive.unbox (primitive : Primitive) (value : Value) : Except CallError Native :=
  match primitive, value with
  | .boolean, .boolean b => .ok (.boolean b)
  | .byte, .byte n => .ok (.byte n)
  | .char, .char c => .ok (.char c)
  | .short, .short n => .ok (.short n)
  | .int, .int n => .ok (.int n)
  | .long, .long n => .ok (.long n)
  | .float, .float x => .ok (.float x)
  | .double, .double x => .ok (.double x)
  | .void, .null => .ok .void
  | primitive, .null => .error (.nullPrimitive primitive)
  | primitive, value => .error (.wrongType primitive.name value.typeName)

theorem Primitive.unbox_box {native : Native} {primitive : Primitive}
    (h : native.primitive? = some primitive) : primitive.unbox native.box = .ok native := by
  cases native <;> simp [Native.primitive?] at h <;> subst h <;> rfl

theorem Primitive.box_of_unbox {primitive : Primitive} {value : Value} {native : Native}
    (h : primitive.unbox value = .ok native) :
    native.box = value ∧ native.primitive? = some primitive := by
  cases primitive <;> cases value <;> simp [Primitive.unbox] at h <;> subst h <;>
    exact ⟨rfl, rfl⟩

end TypeAtlas
