/-
  Writing a blob.

  A blob is the mark `PMAD`, the version, the pool of texts and the shape.  All
  texts of the shape are collected first (`Shape.texts`), so that the width of a
  reference is known before the first one is written.

  * `Shape.toBytes` is the blob of a shape;
  * each part has a writer of its own, a function from the part to its bytes
    that may fail: `putRef`, `putList`, `putValue`, `putType`, `putMethod`, …;
  * values and generic types are written with the number of levels that may
    still be entered, and refused where none is left.
-/
import TypeAtlas.Blob.Pool

namespace TypeAtlas

open TypeAtlas.Wire

/-! ## The texts of a shape -/

/-- The texts of a constructor, from left to right. -/
def Constructor.texts (ctor : Constructor) : List String :=
  ctor.declaring :: (ctor.parameters ++ ctor.annotations.flatMap Annotation.texts ++
    ctor.parameterAnnotations.flatMap (List.flatMap Annotation.texts))

/-- The texts of a method, from left to right. -/
def Method.texts (method : Method) : List String :=
  [method.name, method.declaring, method.returns] ++ method.parameters ++
    method.annotations.flatMap Annotation.texts ++
    method.parameterAnnotations.flatMap (List.flatMap Annotation.texts) ++
    method.genericReturns.names

/-- The texts of a field, from left to right. -/
def Field.texts (field : Field) : List String :=
  [field.name, field.declaring, field.typeName] ++ field.annotations.flatMap Annotation.texts

/-- The texts of a shape in the order in which they enter the pool. -/
def Shape.texts (shape : Shape) : List String :=
  [shape.simpleName, shape.name] ++ shape.superclass.toList ++ shape.interfaces ++
    shape.annotations.flatMap Annotation.texts ++
    shape.constructors.flatMap Constructor.texts ++
    (shape.methods ++ shape.proxyMethods.getD []).flatMap Method.texts ++
    shape.fields.flatMap Field.texts

namespace Blob

/-- Bytes, or why there are none. -/
abbrev Written := Except BlobError (List UInt8)

/-! ## Counts and references -/

/-- The width of a count, unless the count is too large for any. -/
def widthOf (count : Nat) : Except BlobError Width :=
  if count < countLimit then .ok (.fit count) else .error (.unwritable (.tooMany count))

/-- The byte that names a width. -/
def selectorByte (width : Width) : UInt8 := UInt8.ofNat width.selector

/-- A count behind the byte that names its width. -/
def putSize (count : Nat) : Written := do
  let width ← widthOf count
  return selectorByte width :: putNumber width count

/-- The items of a list, one after another. -/
def putAll {α : Type} (put : α → Written) (items : List α) : Written :=
  List.flatten <$> items.mapM put

def putList {α : Type} (put : α → Written) (items : List α) : Written := do
  return (← putSize items.length) ++ (← putAll put items)

def putRef (pool : Pool) (s : String) : Written :=
  match pool.index? s with
  | some i => .ok (putNumber pool.indexWidth i)
  | none => .error (.unwritable (.notPooled s))

/-- A part that may be absent: a zero, or a one and the part. -/
def putOption {α : Type} (put : α → Written) : Option α → Written
  | none => .ok [0]
  | some part => (1 :: ·) <$> put part

/-! ## Values -/

mutual

/-- A value that may be nested `room` levels deep. -/
def putValue (pool : Pool) (room : Nat) (value : AnnotationValue) : Written :=
  match room, value with
  | 0, _ => .error .tooDeep
  | _ + 1, .null => .ok [0]
  | _ + 1, .text s => (1 :: ·) <$> putRef pool s
  | _ + 1, .flag b => .ok (2 :: putBool b)
  | _ + 1, .int n => .ok (3 :: putInt32 n)
  | _ + 1, .long n => .ok (4 :: putInt64 n)
  | _ + 1, .float x => .ok (5 :: putFloat32 x)
  | _ + 1, .double x => .ok (6 :: putFloat64 x)
  | room + 1, .list items => do
    let width ← widthOf items.length
    return UInt8.ofNat (7 + width.selector) ::
      (putNumber width items.length ++ (← putValues pool room [] items))
  | _ + 1, .other s => (11 :: ·) <$> putRef pool s

/-- The values of a list; `done` holds the bytes of the items before them, last
    item first. -/
def putValues (pool : Pool) (room : Nat) (done : List (List UInt8)) :
    List AnnotationValue → Written
  | [] => .ok done.reverse.flatten
  | value :: rest => do
    let bytes ← putValue pool room value
    putValues pool room (bytes :: done) rest

end

/-! ## Generic types -/

mutual

/-- A generic type that may be nested `room` levels deep. -/
def putType (pool : Pool) (room : Nat) (expr : TypeExpr) : Written :=
  match room, expr with
  | 0, _ => .error .tooDeep
  | _ + 1, .named name => (0 :: ·) <$> putRef pool name
  | room + 1, .applied raw owner args => do
    return 1 :: ((← putRef pool raw) ++ (← putOwner pool room owner) ++
      (← putSize args.length) ++ (← putTypes pool room [] args))
  | room + 1, .typeVar name bounds => do
    return 2 :: ((← putRef pool name) ++
      (← putSize bounds.length) ++ (← putTypes pool room [] bounds))
  | room + 1, .wildcard upper lower => do
    return 3 :: ((← putSize upper.length) ++ (← putTypes pool room [] upper) ++
      (← putSize lower.length) ++ (← putTypes pool room [] lower))
  | room + 1, .array component => (4 :: ·) <$> putType pool room component

/-- The owner of a generic type, if there is one. -/
def putOwner (pool : Pool) (room : Nat) : Option TypeExpr → Written
  | none => .ok [0]
  | some owner => (1 :: ·) <$> putType pool room owner

/-- The types of a list; `done` holds the bytes of the items before them, last
    item first. -/
def putTypes (pool : Pool) (room : Nat) (done : List (List UInt8)) :
    List TypeExpr → Written
  | [] => .ok done.reverse.flatten
  | expr :: rest => do
    let bytes ← putType pool room expr
    putTypes pool room (bytes :: done) rest

end

/-! ## Annotations -/

def putProperty (pool : Pool) (entry : String × AnnotationValue) : Written := do
  return (← putRef pool entry.1) ++ (← putValue pool nestingLimit entry.2)

def putNote (pool : Pool) (note : Annotation) : Written := do
  return (← putRef pool note.typeName) ++ (← putRef pool note.simpleName) ++
    (← putOption (putRef pool) note.qualifiedName) ++
    (← putList (putProperty pool) note.properties.entries)

def putAnnotations (pool : Pool) : List Annotation → Written := putList (putNote pool)

/-! ## Members -/

/-- A byte of flags, the first flag lowest. -/
def putFlags (flags : List Bool) : UInt8 :=
  UInt8.ofNat (flags.foldr (fun flag n => flag.toNat + 2 * n) 0)

def memberFlags (modifiers : MemberModifiers) : UInt8 :=
  putFlags [modifiers.isStatic, modifiers.isFinal, modifiers.isAbstract]

def putConstructor (pool : Pool) (ctor : Constructor) : Written := do
  return (← putRef pool ctor.declaring) ++ memberFlags ctor.modifiers ::
    ((← putList (putRef pool) ctor.parameters) ++ (← putAnnotations pool ctor.annotations) ++
      (← putList (putAnnotations pool) ctor.parameterAnnotations))

def putMethod (pool : Pool) (method : Method) : Written := do
  return (← putRef pool method.name) ++ (← putRef pool method.declaring) ++
    (← putRef pool method.returns) ++ memberFlags method.modifiers ::
    ((← putList (putRef pool) method.parameters) ++
      (← putAnnotations pool method.annotations) ++
      (← putList (putAnnotations pool) method.parameterAnnotations) ++
      (← putType pool nestingLimit method.genericReturns))

def putField (pool : Pool) (field : Field) : Written := do
  return (← putRef pool field.name) ++ (← putRef pool field.declaring) ++
    (← putRef pool field.typeName) ++ memberFlags field.modifiers ::
    (← putAnnotations pool field.annotations)

/-! ## The shape -/

/-- The two bits of a kind. -/
def kindBits : TypeKind → Nat
  | .cls => 0
  | .interface => 1
  | .enum => 2
  | .object => 3

/-- The kind and the modifiers of a type, and whether it has a superclass. -/
def typeFlags (shape : Shape) : UInt8 :=
  let m := shape.modifiers
  UInt8.ofNat (kindBits shape.kind + 4 * (putFlags
    [m.isAbstract, m.isSealed, m.isData, m.isCompanion, shape.superclass.isSome]).toNat)

/-- The widths of the four counts of a shape in one byte. -/
def layoutByte (interfaces constructors methods fields : Width) : UInt8 :=
  UInt8.ofNat (interfaces.selector + 4 * constructors.selector + 16 * methods.selector +
    64 * fields.selector)

/-- The methods that a stand-in answers, behind a byte that is zero if there can
    be none and names the width of their count otherwise. -/
def putProxyMethods (pool : Pool) : Option (List Method) → Written
  | none => .ok [0]
  | some methods => do
    let width ← widthOf methods.length
    return UInt8.ofNat (width.selector + 1) ::
      (putNumber width methods.length ++ (← putAll (putMethod pool) methods))

/-- The superclass, if there is one. -/
def putSuperclass (pool : Pool) : Option String → Written
  | none => .ok []
  | some name => putRef pool name

def putShape (pool : Pool) (shape : Shape) : Written := do
  let names := (← putRef pool shape.simpleName) ++ (← putRef pool shape.name)
  let interfaces ← widthOf shape.interfaces.length
  let constructors ← widthOf shape.constructors.length
  let methods ← widthOf shape.methods.length
  let fields ← widthOf shape.fields.length
  return names ++ typeFlags shape :: layoutByte interfaces constructors methods fields ::
    ((← putSuperclass pool shape.superclass) ++
      putNumber interfaces shape.interfaces.length ++
      (← putAll (putRef pool) shape.interfaces) ++
      (← putAnnotations pool shape.annotations) ++
      putNumber constructors shape.constructors.length ++
      (← putAll (putConstructor pool) shape.constructors) ++
      putNumber methods shape.methods.length ++
      (← putAll (putMethod pool) shape.methods) ++
      putNumber fields shape.fields.length ++
      (← putAll (putField pool) shape.fields) ++
      (← putProxyMethods pool shape.proxyMethods))

end Blob

def Shape.toBytes (shape : Shape) : Blob.Written := do
  if let .error fault := shape.check then throw (.unwritable (.faulty fault))
  let pool := Blob.Pool.ofTexts shape.texts
  return Blob.mark ++ UInt8.ofNat Blob.version ::
    ((← pool.write) ++ (← Blob.putShape pool shape))

/-- The blob of a shape in Base64. -/
def Shape.toBase64 (shape : Shape) : Except BlobError String :=
  Text.Base64.encode <$> shape.toBytes

end TypeAtlas
